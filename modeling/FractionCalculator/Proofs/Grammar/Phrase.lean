import FractionCalculator.Expression.Basic
import FractionCalculator.Lexeme

/-!
The grammar of expressions as trees of phrases, each with the lexemes that it is written with and the
expression that it stands for. No list of lexemes can be read as two different phrases.
-/

namespace FractionCalculator

def Operator.additive : Operator → Bool
  | .add | .subtract => true
  | .multiply | .divide => false

mutual

inductive SumPhrase
  | single (term : TermPhrase)
  | chain (left : SumPhrase) (sign : Operator) (additive : sign.additive = true)
      (right : TermPhrase)

/-- A primary, a term and a primary with `*` or `/` between them, or a term and a sum in
parentheses. -/
inductive TermPhrase
  | single (primary : PrimaryPhrase)
  | chain (left : TermPhrase) (sign : Operator) (multiplicative : sign.additive = false)
      (right : PrimaryPhrase)
  | beside (left : TermPhrase) (inside : SumPhrase)

inductive PrimaryPhrase
  | number (digits : String)
  | negative (digits : String)
  | negated (inside : SumPhrase)
  | grouped (inside : SumPhrase)

end

mutual

def SumPhrase.lexemes : SumPhrase → List Lexeme
  | .single term => term.lexemes
  | .chain left sign _ right => left.lexemes ++ .operator sign :: right.lexemes

def TermPhrase.lexemes : TermPhrase → List Lexeme
  | .single primary => primary.lexemes
  | .chain left sign _ right => left.lexemes ++ .operator sign :: right.lexemes
  | .beside left inside => left.lexemes ++ .opening :: (inside.lexemes ++ [.closing])

def PrimaryPhrase.lexemes : PrimaryPhrase → List Lexeme
  | .number digits => [.number digits]
  | .negative digits => [.operator .subtract, .number digits]
  | .negated inside => .operator .subtract :: .opening :: (inside.lexemes ++ [.closing])
  | .grouped inside => .opening :: (inside.lexemes ++ [.closing])

end

mutual

def SumPhrase.expression : SumPhrase → Expression
  | .single term => term.expression
  | .chain left sign _ right => .binary sign left.expression right.expression

def TermPhrase.expression : TermPhrase → Expression
  | .single primary => primary.expression
  | .chain left sign _ right => .binary sign left.expression right.expression
  | .beside left inside => .binary .multiply left.expression inside.expression

def PrimaryPhrase.expression : PrimaryPhrase → Expression
  | .number digits => .number digits
  | .negative digits => .number ("-" ++ digits)
  | .negated inside => .binary .multiply (.number "-1") inside.expression
  | .grouped inside => inside.expression

end

/-! A chain of phrases is its first phrase and the links after it. -/

structure SumLink where
  sign : Operator
  additive : sign.additive = true
  right : TermPhrase

inductive TermLink
  | chain (sign : Operator) (multiplicative : sign.additive = false) (right : PrimaryPhrase)
  | beside (inside : SumPhrase)

def SumLink.lexemes (link : SumLink) : List Lexeme := .operator link.sign :: link.right.lexemes

def TermLink.lexemes : TermLink → List Lexeme
  | .chain sign _ right => .operator sign :: right.lexemes
  | .beside inside => .opening :: (inside.lexemes ++ [.closing])

namespace SumPhrase

def first : SumPhrase → TermPhrase
  | .single term => term
  | .chain left _ _ _ => left.first

def links : SumPhrase → List SumLink
  | .single _ => []
  | .chain left sign additive right => left.links ++ [⟨sign, additive, right⟩]

def extend (left : SumPhrase) (link : SumLink) : SumPhrase :=
  .chain left link.sign link.additive link.right

theorem lexemes_eq_links : ∀ sum : SumPhrase,
    sum.lexemes = sum.first.lexemes ++ sum.links.flatMap SumLink.lexemes
  | .single term => by simp [lexemes, first, links]
  | .chain left sign additive right => by
      simp [lexemes, first, links, SumLink.lexemes, lexemes_eq_links left]

theorem foldl_extend_links : ∀ sum : SumPhrase, sum.links.foldl extend (.single sum.first) = sum
  | .single term => rfl
  | .chain left sign additive right => by
      simp [first, links, extend, foldl_extend_links left]

theorem ext_links {sum other : SumPhrase} (sameFirst : sum.first = other.first)
    (sameLinks : sum.links = other.links) : sum = other := by
  rw [← foldl_extend_links sum, ← foldl_extend_links other, sameFirst, sameLinks]

end SumPhrase

namespace TermPhrase

def first : TermPhrase → PrimaryPhrase
  | .single primary => primary
  | .chain left _ _ _ => left.first
  | .beside left _ => left.first

def links : TermPhrase → List TermLink
  | .single _ => []
  | .chain left sign multiplicative right => left.links ++ [.chain sign multiplicative right]
  | .beside left inside => left.links ++ [.beside inside]

def extend (left : TermPhrase) : TermLink → TermPhrase
  | .chain sign multiplicative right => .chain left sign multiplicative right
  | .beside inside => .beside left inside

theorem lexemes_eq_links : ∀ term : TermPhrase,
    term.lexemes = term.first.lexemes ++ term.links.flatMap TermLink.lexemes
  | .single primary => by simp [lexemes, first, links]
  | .chain left sign multiplicative right => by
      simp [lexemes, first, links, TermLink.lexemes, lexemes_eq_links left]
  | .beside left inside => by
      simp [lexemes, first, links, TermLink.lexemes, lexemes_eq_links left]

theorem foldl_extend_links : ∀ term : TermPhrase,
    term.links.foldl extend (.single term.first) = term
  | .single primary => rfl
  | .chain left sign multiplicative right => by
      simp [first, links, extend, foldl_extend_links left]
  | .beside left inside => by
      simp [first, links, extend, foldl_extend_links left]

theorem ext_links {term other : TermPhrase} (sameFirst : term.first = other.first)
    (sameLinks : term.links = other.links) : term = other := by
  rw [← foldl_extend_links term, ← foldl_extend_links other, sameFirst, sameLinks]

end TermPhrase

/-! Each kind of phrase ends where a lexeme follows that cannot go on with it. A primary ends
anyway. -/

def Lexeme.endsTerm : Lexeme → Bool
  | .operator sign => sign.additive
  | .closing => true
  | _ => false

def EndsTerm (rest : List Lexeme) : Prop := ∀ next ∈ rest.head?, next.endsTerm = true

def EndsSum (rest : List Lexeme) : Prop := ∀ next ∈ rest.head?, next = .closing

theorem endsTerm_nil : EndsTerm [] := by
  simp [EndsTerm]

theorem endsTerm_cons {next : Lexeme} (ends : next.endsTerm = true) (rest : List Lexeme) :
    EndsTerm (next :: rest) := by
  simpa [EndsTerm] using ends

theorem endsSum_nil : EndsSum [] := by
  simp [EndsSum]

theorem endsSum_closing (rest : List Lexeme) : EndsSum (.closing :: rest) := by
  simp [EndsSum]

theorem EndsSum.endsTerm {rest : List Lexeme} (ends : EndsSum rest) : EndsTerm rest := by
  intro next found
  rw [ends next found]
  rfl

def PrimaryPhrase.ReadsOnce (primary : PrimaryPhrase) : Prop :=
  ∀ other rest otherRest, primary.lexemes ++ rest = other.lexemes ++ otherRest →
    primary = other ∧ rest = otherRest

def TermPhrase.ReadsOnce (term : TermPhrase) : Prop :=
  ∀ other rest otherRest, term.lexemes ++ rest = other.lexemes ++ otherRest →
    EndsTerm rest → EndsTerm otherRest → term = other ∧ rest = otherRest

def SumPhrase.ReadsOnce (sum : SumPhrase) : Prop :=
  ∀ other rest otherRest, sum.lexemes ++ rest = other.lexemes ++ otherRest →
    EndsSum rest → EndsSum otherRest → sum = other ∧ rest = otherRest

def TermLink.ReadsOnce (link : TermLink) : Prop :=
  ∀ other rest otherRest, link.lexemes ++ rest = other.lexemes ++ otherRest →
    link = other ∧ rest = otherRest

theorem links_unique {Link : Type} (lexemes : Link → List Lexeme) (Ends : List Lexeme → Prop)
    (begins : ∀ link rest, Ends (lexemes link ++ rest)) {rest otherRest : List Lexeme}
    (ends : Ends rest) (otherEnds : Ends otherRest)
    (past : ∀ link more, rest ≠ lexemes link ++ more)
    (otherPast : ∀ link more, otherRest ≠ lexemes link ++ more) :
    ∀ links others : List Link,
      (∀ link ∈ links, ∀ other rest otherRest, lexemes link ++ rest = lexemes other ++ otherRest →
        Ends rest → Ends otherRest → link = other ∧ rest = otherRest) →
      links.flatMap lexemes ++ rest = others.flatMap lexemes ++ otherRest →
      links = others ∧ rest = otherRest := by
  -- A link ends where the next one begins, so each can be read in one way whatever links follow.
  have endsRow (row : List Link) {tail : List Lexeme} (ends : Ends tail) :
      Ends (row.flatMap lexemes ++ tail) := by
    cases row with
    | nil => exact ends
    | cons link row => simpa using begins link _
  intro links
  induction links with
  | nil =>
      intro others _ same
      cases others with
      | nil => exact ⟨rfl, same⟩
      | cons other others =>
          simp only [List.flatMap_nil, List.nil_append, List.flatMap_cons, List.append_assoc] at same
          exact absurd same (past other _)
  | cons link links ih =>
      intro others readsOnce same
      cases others with
      | nil =>
          simp only [List.flatMap_nil, List.nil_append, List.flatMap_cons, List.append_assoc] at same
          exact absurd same.symm (otherPast link _)
      | cons other others =>
          simp only [List.flatMap_cons, List.append_assoc] at same
          obtain ⟨rfl, later⟩ := readsOnce link (by simp) other _ _ same
            (endsRow links ends) (endsRow others otherEnds)
          obtain ⟨rfl, restSame⟩ :=
            ih others (fun next member => readsOnce next (by simp [member])) later
          exact ⟨rfl, restSame⟩

theorem SumPhrase.ReadsOnce.enclosed {inside other : SumPhrase} (readsOnce : inside.ReadsOnce)
    {rest otherRest : List Lexeme}
    (same : (inside.lexemes ++ [.closing]) ++ rest = (other.lexemes ++ [.closing]) ++ otherRest) :
    inside = other ∧ rest = otherRest := by
  simp only [List.append_assoc, List.cons_append, List.nil_append] at same
  obtain ⟨insideSame, later⟩ := readsOnce other _ _ same (endsSum_closing _) (endsSum_closing _)
  exact ⟨insideSame, by simpa using later⟩

theorem TermPhrase.readsOnce_of_parts {term : TermPhrase} (firstOnce : term.first.ReadsOnce)
    (linksOnce : ∀ link ∈ term.links, link.ReadsOnce) : term.ReadsOnce := by
  intro other rest otherRest same ends otherEnds
  rw [term.lexemes_eq_links, other.lexemes_eq_links, List.append_assoc, List.append_assoc] at same
  have past {tail : List Lexeme} (ends : EndsTerm tail) :
      ∀ (link : TermLink) more, tail ≠ link.lexemes ++ more := by
    rintro link more rfl
    cases link with
    | chain sign multiplicative right =>
        simp [EndsTerm, TermLink.lexemes, Lexeme.endsTerm, multiplicative] at ends
    | beside inside => simp [EndsTerm, TermLink.lexemes, Lexeme.endsTerm] at ends
  obtain ⟨firstSame, later⟩ := firstOnce _ _ _ same
  obtain ⟨linksSame, restSame⟩ := links_unique TermLink.lexemes (fun _ => True) (by simp) trivial
    trivial (past ends) (past otherEnds) term.links other.links
    (fun link member next rest otherRest equal _ _ =>
      linksOnce link member next rest otherRest equal) later
  exact ⟨TermPhrase.ext_links firstSame linksSame, restSame⟩

theorem SumPhrase.readsOnce_of_parts {sum : SumPhrase} (firstOnce : sum.first.ReadsOnce)
    (linksOnce : ∀ link ∈ sum.links, link.right.ReadsOnce) : sum.ReadsOnce := by
  intro other rest otherRest same ends otherEnds
  rw [sum.lexemes_eq_links, other.lexemes_eq_links, List.append_assoc, List.append_assoc] at same
  have begins (link : SumLink) (more : List Lexeme) : EndsTerm (link.lexemes ++ more) := by
    have ends : (Lexeme.operator link.sign).endsTerm = true := link.additive
    exact endsTerm_cons ends _
  have endsRow (row : List SumLink) {tail : List Lexeme} (ends : EndsSum tail) :
      EndsTerm (row.flatMap SumLink.lexemes ++ tail) := by
    cases row with
    | nil => exact ends.endsTerm
    | cons link row => simpa using begins link _
  have past {tail : List Lexeme} (ends : EndsSum tail) :
      ∀ (link : SumLink) more, tail ≠ link.lexemes ++ more := by
    rintro link more rfl
    simp [EndsSum, SumLink.lexemes] at ends
  have linkOnce : ∀ link ∈ sum.links, ∀ next rest otherRest,
      link.lexemes ++ rest = next.lexemes ++ otherRest → EndsTerm rest → EndsTerm otherRest →
        link = next ∧ rest = otherRest := by
    intro link member next rest otherRest equal ends otherEnds
    simp only [SumLink.lexemes, List.cons_append, List.cons.injEq, Lexeme.operator.injEq] at equal
    obtain ⟨rightSame, later⟩ := linksOnce link member _ _ _ equal.2 ends otherEnds
    obtain ⟨sign, additive, right⟩ := link
    obtain ⟨nextSign, nextAdditive, nextRight⟩ := next
    obtain rfl : sign = nextSign := equal.1
    obtain rfl : right = nextRight := rightSame
    exact ⟨rfl, later⟩
  obtain ⟨firstSame, later⟩ :=
    firstOnce _ _ _ same (endsRow sum.links ends) (endsRow other.links otherEnds)
  obtain ⟨linksSame, restSame⟩ := links_unique SumLink.lexemes EndsTerm begins ends.endsTerm
    otherEnds.endsTerm (past ends) (past otherEnds) sum.links other.links linkOnce later
  exact ⟨SumPhrase.ext_links firstSame linksSame, restSame⟩

theorem TermLink.readsOnce_chain {sign : Operator} {multiplicative : sign.additive = false}
    {right : PrimaryPhrase} (rightOnce : right.ReadsOnce) :
    (TermLink.chain sign multiplicative right).ReadsOnce := by
  intro other rest otherRest same
  cases other with
  | chain otherSign _ otherRight =>
      simp only [lexemes, List.cons_append, List.cons.injEq, Lexeme.operator.injEq] at same
      obtain ⟨rfl, later⟩ := same
      obtain ⟨rfl, restSame⟩ := rightOnce _ _ _ later
      exact ⟨rfl, restSame⟩
  | beside inside => simp [lexemes] at same

theorem TermLink.readsOnce_beside {inside : SumPhrase} (insideOnce : inside.ReadsOnce) :
    (TermLink.beside inside).ReadsOnce := by
  intro other rest otherRest same
  cases other with
  | chain sign _ right => simp [lexemes] at same
  | beside otherInside =>
      simp only [lexemes, List.cons_append, List.cons.injEq, true_and] at same
      obtain ⟨rfl, restSame⟩ := insideOnce.enclosed same
      exact ⟨rfl, restSame⟩

mutual

theorem SumPhrase.parts_readOnce : ∀ sum : SumPhrase,
    sum.first.ReadsOnce ∧ ∀ link ∈ sum.links, link.right.ReadsOnce
  | .single term => by
      obtain ⟨firstOnce, linksOnce⟩ := TermPhrase.parts_readOnce term
      exact ⟨TermPhrase.readsOnce_of_parts firstOnce linksOnce, by simp [SumPhrase.links]⟩
  | .chain left sign additive right => by
      obtain ⟨leftFirst, leftLinks⟩ := SumPhrase.parts_readOnce left
      obtain ⟨firstOnce, linksOnce⟩ := TermPhrase.parts_readOnce right
      refine ⟨leftFirst, ?_⟩
      intro link member
      simp only [SumPhrase.links, List.mem_append, List.mem_singleton] at member
      rcases member with earlier | rfl
      · exact leftLinks link earlier
      · exact TermPhrase.readsOnce_of_parts firstOnce linksOnce

theorem TermPhrase.parts_readOnce : ∀ term : TermPhrase,
    term.first.ReadsOnce ∧ ∀ link ∈ term.links, link.ReadsOnce
  | .single primary => ⟨PrimaryPhrase.readsOnce primary, by simp [TermPhrase.links]⟩
  | .chain left sign multiplicative right => by
      obtain ⟨leftFirst, leftLinks⟩ := TermPhrase.parts_readOnce left
      have rightOnce := PrimaryPhrase.readsOnce right
      refine ⟨leftFirst, ?_⟩
      intro link member
      simp only [TermPhrase.links, List.mem_append, List.mem_singleton] at member
      rcases member with earlier | rfl
      · exact leftLinks link earlier
      · exact TermLink.readsOnce_chain rightOnce
  | .beside left inside => by
      obtain ⟨leftFirst, leftLinks⟩ := TermPhrase.parts_readOnce left
      obtain ⟨firstOnce, linksOnce⟩ := SumPhrase.parts_readOnce inside
      refine ⟨leftFirst, ?_⟩
      intro link member
      simp only [TermPhrase.links, List.mem_append, List.mem_singleton] at member
      rcases member with earlier | rfl
      · exact leftLinks link earlier
      · exact TermLink.readsOnce_beside (SumPhrase.readsOnce_of_parts firstOnce linksOnce)

theorem PrimaryPhrase.readsOnce : ∀ primary : PrimaryPhrase, primary.ReadsOnce
  | .number digits => by
      intro other rest otherRest same
      cases other <;> simp_all [PrimaryPhrase.lexemes]
  | .negative digits => by
      intro other rest otherRest same
      cases other <;> simp_all [PrimaryPhrase.lexemes]
  | .negated inside => by
      obtain ⟨firstOnce, linksOnce⟩ := SumPhrase.parts_readOnce inside
      intro other rest otherRest same
      cases other with
      | number | negative | grouped => simp [PrimaryPhrase.lexemes] at same
      | negated otherInside =>
          simp only [PrimaryPhrase.lexemes, List.cons_append, List.cons.injEq, true_and] at same
          obtain ⟨rfl, restSame⟩ :=
            (SumPhrase.readsOnce_of_parts firstOnce linksOnce).enclosed same
          exact ⟨rfl, restSame⟩
  | .grouped inside => by
      obtain ⟨firstOnce, linksOnce⟩ := SumPhrase.parts_readOnce inside
      intro other rest otherRest same
      cases other with
      | number | negative | negated => simp [PrimaryPhrase.lexemes] at same
      | grouped otherInside =>
          simp only [PrimaryPhrase.lexemes, List.cons_append, List.cons.injEq, true_and] at same
          obtain ⟨rfl, restSame⟩ :=
            (SumPhrase.readsOnce_of_parts firstOnce linksOnce).enclosed same
          exact ⟨rfl, restSame⟩

end

theorem SumPhrase.readsOnce (sum : SumPhrase) : sum.ReadsOnce :=
  SumPhrase.readsOnce_of_parts (SumPhrase.parts_readOnce sum).1 (SumPhrase.parts_readOnce sum).2

/-- The grammar is unambiguous. -/
theorem SumPhrase.lexemes_injective {sum other : SumPhrase} (same : sum.lexemes = other.lexemes) :
    sum = other := by
  refine (sum.readsOnce other [] [] ?_ endsSum_nil endsSum_nil).1
  rw [same]

end FractionCalculator
