import KeyedStore.Expression.Parser
import KeyedStore.Proofs.Except
import KeyedStore.Proofs.Expression.Scanning

/-!
# The grammar of conditions

What the trees of a list of tokens are, said without the parser. The grammar has four phrases, each
of which is made of the next one:

* an alternative is a chain of conjunctions with `OR` between them;
* a conjunction is a chain of negations with `AND` between them;
* a negation is a predicate with any number of `NOT` before it;
* a predicate is an alternative in parentheses, a call of a function, or a test of an operand.

Chains are grouped from the left. `Derives.reads` shows that the parser reads what is derived, and
`derives_of_alternative` that it reads nothing else.

## Main definitions

* `Grammar.Derives` — the trees of tokens as a phrase.
* `Parser.ReadsPredicate`, `Parser.ReadsNegation`, `Parser.ReadsConjunction` and
  `Parser.ReadsAlternative` — that tokens are read as an expression, whatever comes after them and
  given four units of fuel for each of them. The two that read chains leave the chain open, so that
  it can go on.
-/
namespace KeyedStore

namespace Grammar

/-- The operand that a token stands for. -/
inductive Denotes : Token → Operand → Prop
  | name (text : String) : Denotes (.name text) (.path text)
  | word (text : String) : Denotes (.word text) (.path text)
  | value (text : String) : Denotes (.value text) (.value text)

/-- One or more operands with commas between them. -/
inductive DerivesList : List Token → List Operand → Prop
  | one {token : Token} {operand : Operand} (h : Denotes token operand) :
      DerivesList [token] [operand]
  | more {token : Token} {operand : Operand} {tokens : List Token} {list : List Operand}
      (h : Denotes token operand) (hlist : DerivesList tokens list) :
      DerivesList (token :: .comma :: tokens) (operand :: list)

/-- The phrases of the grammar. -/
inductive Phrase where
  | alternative
  | conjunction
  | negation
  | predicate

/-- The trees of tokens as a phrase. -/
inductive Derives : Phrase → List Token → Expr → Prop
  | or {first second : List Token} {left right : Expr} (hleft : Derives .alternative first left)
      (hright : Derives .conjunction second right) :
      Derives .alternative (first ++ .keyword .or :: second) (.or left right)
  | conjunction {tokens : List Token} {e : Expr} (h : Derives .conjunction tokens e) :
      Derives .alternative tokens e
  | and {first second : List Token} {left right : Expr} (hleft : Derives .conjunction first left)
      (hright : Derives .negation second right) :
      Derives .conjunction (first ++ .keyword .and :: second) (.and left right)
  | negation {tokens : List Token} {e : Expr} (h : Derives .negation tokens e) :
      Derives .conjunction tokens e
  | not {tokens : List Token} {e : Expr} (h : Derives .negation tokens e) :
      Derives .negation (.keyword .not :: tokens) (.not e)
  | predicate {tokens : List Token} {e : Expr} (h : Derives .predicate tokens e) :
      Derives .negation tokens e
  | enclosed {tokens : List Token} {e : Expr} (h : Derives .alternative tokens e) :
      Derives .predicate (.opening :: (tokens ++ [.closing])) e
  | call {tokens : List Token} {arguments : List Operand} (f : ConditionFunction)
      (h : DerivesList tokens arguments) :
      Derives .predicate (.function f :: .opening :: (tokens ++ [.closing])) (.call f arguments)
  | compare {first second : Token} {left right : Operand} (op : Comparison)
      (hleft : Denotes first left) (hright : Denotes second right) :
      Derives .predicate [first, .comparison op, second] (.compare left op right)
  | between {first second third : Token} {value low high : Operand} (hvalue : Denotes first value)
      (hlow : Denotes second low) (hhigh : Denotes third high) :
      Derives .predicate [first, .keyword .between, second, .keyword .and, third]
        (.between value low high)
  | member {first : Token} {value : Operand} {tokens : List Token} {list : List Operand}
      (hvalue : Denotes first value) (hlist : DerivesList tokens list) :
      Derives .predicate (first :: .keyword .in :: .opening :: (tokens ++ [.closing]))
        (.member value list)

theorem Derives.ne_nil {phrase : Phrase} {tokens : List Token} {e : Expr}
    (h : Derives phrase tokens e) : tokens ≠ [] := by
  induction h <;> simp_all

/-- No predicate starts like a negation. -/
theorem Derives.head_ne_not {tokens : List Token} {e : Expr} (h : Derives .predicate tokens e)
    (rest : List Token) : (tokens ++ rest).head? ≠ some (.keyword .not) := by
  cases h with
  | enclosed h => simp
  | call f h => simp
  | compare op hleft hright => cases hleft <;> simp
  | between hvalue hlow hhigh => cases hvalue <;> simp
  | member hvalue hlist => cases hvalue <;> simp

end Grammar

namespace Parser

open Grammar

/-! ## Operands and single tokens -/

/-- An operand is read where a token stands for it. -/
theorem operand_eq_ok_iff {tokens rest : List Token} {operand : Operand} :
    Parser.operand tokens = .ok (operand, rest) ↔
      ∃ token, tokens = token :: rest ∧ Denotes token operand := by
  constructor
  · intro h
    rw [Parser.operand.eq_def] at h
    split at h
    · cases h
      exact ⟨_, rfl, .value _⟩
    · cases h
      exact ⟨_, rfl, .name _⟩
    · cases h
      exact ⟨_, rfl, .word _⟩
    · rw [unexpected.eq_def] at h
      split at h <;> cases h
  · rintro ⟨token, rfl, h⟩
    cases h <;> rfl

theorem operand_cons {token : Token} {operand : Operand} (h : Denotes token operand)
    (rest : List Token) : Parser.operand (token :: rest) = .ok (operand, rest) :=
  operand_eq_ok_iff.2 ⟨token, rfl, h⟩

theorem expect_eq_ok_iff {token : Token} {tokens rest : List Token} :
    expect token tokens = .ok rest ↔ tokens = token :: rest := by
  cases tokens with
  | nil => simp [expect]
  | cons found others =>
    rw [expect]
    split <;> simp_all [unexpected]

@[simp]
theorem expect_cons (token : Token) (rest : List Token) :
    expect token (token :: rest) = .ok rest := expect_eq_ok_iff.2 rfl

/-! ## Reading what is derived -/

/-- Read by `predicate`. -/
def ReadsPredicate (tokens : List Token) (e : Expr) : Prop :=
  ∀ fuel rest, 4 * tokens.length ≤ fuel → predicate fuel (tokens ++ rest) = .ok (e, rest)

/-- Read by `negation`. -/
def ReadsNegation (tokens : List Token) (e : Expr) : Prop :=
  ∀ fuel rest, 4 * tokens.length + 1 ≤ fuel → negation fuel (tokens ++ rest) = .ok (e, rest)

/-- Read by `conjunction`, with fuel left to go on. -/
def ReadsConjunction (tokens : List Token) (e : Expr) : Prop :=
  ∀ fuel rest, 4 * tokens.length + 2 ≤ fuel → ∃ left, fuel ≤ left + tokens.length ∧
    conjunction fuel (tokens ++ rest) = conjunctionAfter left e rest

/-- Read by `alternative`, with fuel left to go on, unless a conjunction goes on. -/
def ReadsAlternative (tokens : List Token) (e : Expr) : Prop :=
  ∀ fuel rest, 4 * tokens.length + 3 ≤ fuel → rest.head? ≠ some (.keyword .and) →
    ∃ left, fuel ≤ left + tokens.length ∧
      alternative fuel (tokens ++ rest) = alternativeAfter left e rest

section Chains

variable {tokens : List Token} {e : Expr} {rest : List Token} {fuel : Nat}

theorem conjunctionAfter_of_head?_ne (hfuel : 0 < fuel)
    (hrest : rest.head? ≠ some (.keyword .and)) : conjunctionAfter fuel e rest = .ok (e, rest) := by
  obtain ⟨fuel, rfl⟩ := Nat.exists_eq_add_one.2 hfuel
  rw [conjunctionAfter]
  intro others hothers
  simp [hothers] at hrest

theorem alternativeAfter_of_head?_ne (hfuel : 0 < fuel)
    (hrest : rest.head? ≠ some (.keyword .or)) : alternativeAfter fuel e rest = .ok (e, rest) := by
  obtain ⟨fuel, rfl⟩ := Nat.exists_eq_add_one.2 hfuel
  rw [alternativeAfter]
  intro others hothers
  simp [hothers] at hrest

/-- A predicate is a negation, unless it starts like one. -/
theorem ReadsPredicate.negation (h : ReadsPredicate tokens e)
    (hhead : ∀ rest, (tokens ++ rest).head? ≠ some (.keyword .not)) : ReadsNegation tokens e := by
  intro fuel rest hfuel
  obtain ⟨fuel, rfl⟩ := Nat.exists_eq_add_one.2 (show 0 < fuel by omega)
  rw [Parser.negation]
  · exact h fuel rest (by omega)
  · intro others hothers
    exact hhead rest (by simp [hothers])

/-- `NOT` before a negation. -/
theorem ReadsNegation.not (h : ReadsNegation tokens e) :
    ReadsNegation (.keyword .not :: tokens) (.not e) := by
  intro fuel rest hfuel
  obtain ⟨fuel, rfl⟩ := Nat.exists_eq_add_one.2 (show 0 < fuel by omega)
  have hinner := h fuel rest (by simp at hfuel; omega)
  rw [List.cons_append, Parser.negation, hinner]
  rfl

/-- A negation is a chain of one. -/
theorem ReadsNegation.conjunction (h : ReadsNegation tokens e) (hne : tokens ≠ []) :
    ReadsConjunction tokens e := by
  intro fuel rest hfuel
  have hlen : 0 < tokens.length := List.length_pos_iff.2 hne
  obtain ⟨fuel, rfl⟩ := Nat.exists_eq_add_one.2 (show 0 < fuel by omega)
  refine ⟨fuel, by omega, ?_⟩
  rw [Parser.conjunction, h fuel rest (by omega)]
  rfl

/-- A chain goes on with `AND` and a negation. -/
theorem ReadsConjunction.and {first second : List Token} {left right : Expr}
    (hleft : ReadsConjunction first left) (hright : ReadsNegation second right) :
    ReadsConjunction (first ++ .keyword .and :: second) (.and left right) := by
  intro fuel rest hfuel
  simp only [List.length_append, List.length_cons] at hfuel ⊢
  obtain ⟨more, hmore, hfirst⟩ := hleft fuel (.keyword .and :: (second ++ rest)) (by omega)
  obtain ⟨more, rfl⟩ := Nat.exists_eq_add_one.2 (show 0 < more by omega)
  refine ⟨more, by omega, ?_⟩
  have hsecond := hright more rest (by omega)
  rw [List.append_assoc, List.cons_append, hfirst, conjunctionAfter, hsecond]
  rfl

/-- A conjunction is a chain of one. -/
theorem ReadsConjunction.alternative (h : ReadsConjunction tokens e) (hne : tokens ≠ []) :
    ReadsAlternative tokens e := by
  intro fuel rest hfuel hrest
  have hlen : 0 < tokens.length := List.length_pos_iff.2 hne
  obtain ⟨fuel, rfl⟩ := Nat.exists_eq_add_one.2 (show 0 < fuel by omega)
  obtain ⟨more, hmore, hread⟩ := h fuel rest (by omega)
  refine ⟨fuel, by omega, ?_⟩
  rw [Parser.alternative, hread, conjunctionAfter_of_head?_ne (by omega) hrest]
  rfl

/-- A chain goes on with `OR` and a conjunction. -/
theorem ReadsAlternative.or {first second : List Token} {left right : Expr}
    (hleft : ReadsAlternative first left) (hright : ReadsConjunction second right) :
    ReadsAlternative (first ++ .keyword .or :: second) (.or left right) := by
  intro fuel rest hfuel hrest
  simp only [List.length_append, List.length_cons] at hfuel ⊢
  obtain ⟨more, hmore, hfirst⟩ := hleft fuel (.keyword .or :: (second ++ rest)) (by omega) (by simp)
  obtain ⟨more, rfl⟩ := Nat.exists_eq_add_one.2 (show 0 < more by omega)
  refine ⟨more, by omega, ?_⟩
  obtain ⟨inner, hinner, hsecond⟩ := hright more rest (by omega)
  rw [List.append_assoc, List.cons_append, hfirst, alternativeAfter, hsecond,
    conjunctionAfter_of_head?_ne (by omega) hrest]
  rfl

/-- Anything in parentheses is a predicate. -/
theorem ReadsAlternative.enclosed (h : ReadsAlternative tokens e) :
    ReadsPredicate (.opening :: (tokens ++ [.closing])) e := by
  intro fuel rest hfuel
  simp only [List.length_append, List.length_cons, List.length_nil] at hfuel
  obtain ⟨fuel, rfl⟩ := Nat.exists_eq_add_one.2 (show 0 < fuel by omega)
  obtain ⟨more, hmore, hread⟩ := h fuel (.closing :: rest) (by omega) (by simp)
  have hsplit : Token.opening :: (tokens ++ [.closing]) ++ rest =
      .opening :: (tokens ++ .closing :: rest) := by simp
  rw [hsplit, predicate, hread, alternativeAfter_of_head?_ne (by omega) (by simp)]
  rfl

end Chains

/-- The operands of a list are read one by one. -/
theorem operandsAfter_comma {tokens : List Token} {list : List Operand}
    (h : DerivesList tokens list) {fuel : Nat} (hfuel : tokens.length < fuel)
    (rest : List Token) :
    operandsAfter fuel (.comma :: (tokens ++ .closing :: rest)) = .ok (list, rest) := by
  induction h generalizing fuel with
  | one h =>
    obtain ⟨fuel, rfl⟩ := Nat.exists_eq_add_of_lt hfuel
    simp [operandsAfter, operand_cons h]
  | more h hlist ih =>
    simp only [List.length_cons] at hfuel
    obtain ⟨fuel, rfl⟩ := Nat.exists_eq_add_one.2 (show 0 < fuel by omega)
    have htail := @ih fuel (by omega)
    simp [operandsAfter, operand_cons h, htail]

/-- Operands in parentheses are read one by one. -/
theorem operands_of_derivesList {tokens : List Token} {list : List Operand}
    (h : DerivesList tokens list) (rest : List Token) :
    operands (.opening :: (tokens ++ .closing :: rest)) = .ok (list, rest) := by
  cases h with
  | one h => simp [operands, operandsAfter, operand_cons h]
  | @more token operand tokens list h hlist =>
    have hfuel : tokens.length < (Token.comma :: (tokens ++ .closing :: rest)).length + 1 := by
      simp only [List.length_cons, List.length_append]
      omega
    have hafter := operandsAfter_comma hlist hfuel rest
    rw [List.cons_append, List.cons_append, operands, expect_cons, ok_bind, operand_cons h, ok_bind]
    simp only [hafter, ok_bind]

/-- A predicate that starts with an operand goes on after it. -/
theorem predicate_of_denotes {token : Token} {operand : Operand} (h : Denotes token operand)
    (fuel : Nat) (rest : List Token) :
    predicate (fuel + 1) (token :: rest) = predicateAfter operand rest := by
  cases h <;> rfl

/-- Read as a phrase of the grammar. -/
def Reads : Phrase → List Token → Expr → Prop
  | .alternative => ReadsAlternative
  | .conjunction => ReadsConjunction
  | .negation => ReadsNegation
  | .predicate => ReadsPredicate

/-- What is derived is read. -/
theorem reads_of_derives {phrase : Phrase} {tokens : List Token} {e : Expr}
    (h : Derives phrase tokens e) : Reads phrase tokens e := by
  induction h with
  | or _ _ ihleft ihright => exact ReadsAlternative.or ihleft ihright
  | conjunction h ih => exact ReadsConjunction.alternative ih h.ne_nil
  | and _ _ ihleft ihright => exact ReadsConjunction.and ihleft ihright
  | negation h ih => exact ReadsNegation.conjunction ih h.ne_nil
  | not _ ih => exact ReadsNegation.not ih
  | predicate h ih => exact ReadsPredicate.negation ih h.head_ne_not
  | enclosed _ ih => exact ReadsAlternative.enclosed ih
  | call f h =>
    intro fuel rest hfuel
    obtain ⟨fuel, rfl⟩ := Nat.exists_eq_add_one.2 (show 0 < fuel by simp at hfuel; omega)
    simp [predicate, operands_of_derivesList h]
  | compare op hleft hright =>
    intro fuel rest hfuel
    obtain ⟨fuel, rfl⟩ := Nat.exists_eq_add_one.2 (show 0 < fuel by simp at hfuel; omega)
    simp [predicate_of_denotes hleft, predicateAfter, operand_cons hright]
  | between hvalue hlow hhigh =>
    intro fuel rest hfuel
    obtain ⟨fuel, rfl⟩ := Nat.exists_eq_add_one.2 (show 0 < fuel by simp at hfuel; omega)
    simp [predicate_of_denotes hvalue, predicateAfter, operand_cons hlow, operand_cons hhigh]
  | member hvalue hlist =>
    intro fuel rest hfuel
    obtain ⟨fuel, rfl⟩ := Nat.exists_eq_add_one.2 (show 0 < fuel by simp at hfuel; omega)
    simp [predicate_of_denotes hvalue, predicateAfter, operands_of_derivesList hlist]

/-- An alternative is read to its end. -/
theorem alternative_of_derives {tokens : List Token} {e : Expr}
    (h : Derives .alternative tokens e) :
    Parser.alternative (4 * tokens.length + 4) tokens = .ok (e, []) := by
  have hreads : ReadsAlternative tokens e := reads_of_derives h
  obtain ⟨left, hleft, hread⟩ := hreads (4 * tokens.length + 4) [] (by omega) (by simp)
  rw [List.append_nil] at hread
  rw [hread]
  exact alternativeAfter_of_head?_ne (by omega) (by simp)

/-- Tokens have one tree at most. -/
theorem eq_of_derives {tokens : List Token} {e e' : Expr} (h : Derives .alternative tokens e)
    (h' : Derives .alternative tokens e') : e = e' := by
  have hsame := (alternative_of_derives h).symm.trans (alternative_of_derives h')
  cases hsame
  rfl

/-! ## Deriving what is read -/

/-- A list of operands that is read after its first one goes on like a list. -/
theorem derivesList_of_operandsAfter {fuel : Nat} {tokens rest : List Token}
    {others : List Operand} (h : operandsAfter fuel tokens = .ok (others, rest)) {token : Token}
    {first : Operand} (hfirst : Denotes token first) :
    ∃ used, tokens = used ++ .closing :: rest ∧ DerivesList (token :: used) (first :: others) := by
  induction fuel generalizing tokens others token first with
  | zero => cases h
  | succ fuel ih =>
    rw [operandsAfter.eq_def] at h
    split at h
    · cases h
    · next heq =>
      cases heq
      obtain ⟨⟨second, after⟩, hsecond, hmore⟩ := bind_eq_ok_iff.1 h
      obtain ⟨⟨third, last⟩, hthird, hend⟩ := bind_eq_ok_iff.1 hmore
      cases hend
      obtain ⟨token, rfl, hdenotes⟩ := operand_eq_ok_iff.1 hsecond
      obtain ⟨used, rfl, hused⟩ := ih hthird hdenotes
      exact ⟨.comma :: token :: used, rfl, .more hfirst hused⟩
    · obtain ⟨after, hafter, hend⟩ := bind_eq_ok_iff.1 h
      cases hend
      obtain rfl := expect_eq_ok_iff.1 hafter
      exact ⟨[], rfl, .one hfirst⟩

theorem derivesList_of_operands {tokens rest : List Token} {list : List Operand}
    (h : operands tokens = .ok (list, rest)) :
    ∃ used, tokens = .opening :: (used ++ .closing :: rest) ∧ DerivesList used list := by
  obtain ⟨inner, hinner, h⟩ := bind_eq_ok_iff.1 h
  obtain ⟨⟨first, after⟩, hfirst, h⟩ := bind_eq_ok_iff.1 h
  obtain ⟨⟨others, last⟩, hothers, h⟩ := bind_eq_ok_iff.1 h
  cases h
  obtain rfl := expect_eq_ok_iff.1 hinner
  obtain ⟨token, rfl, hdenotes⟩ := operand_eq_ok_iff.1 hfirst
  obtain ⟨used, rfl, hused⟩ := derivesList_of_operandsAfter hothers hdenotes
  exact ⟨_, rfl, hused⟩

/-- Whatever the parser reads with some fuel is derived. A chain goes on from what was derived
before it. -/
structure IsSoundAt (fuel : Nat) : Prop where
  alternative {tokens rest : List Token} {e : Expr}
      (h : Parser.alternative fuel tokens = .ok (e, rest)) :
    ∃ used, tokens = used ++ rest ∧ Derives .alternative used e
  alternativeAfter {before tokens rest : List Token} {left e : Expr}
      (hleft : Derives .alternative before left)
      (h : Parser.alternativeAfter fuel left tokens = .ok (e, rest)) :
    ∃ used, tokens = used ++ rest ∧ Derives .alternative (before ++ used) e
  conjunction {tokens rest : List Token} {e : Expr}
      (h : Parser.conjunction fuel tokens = .ok (e, rest)) :
    ∃ used, tokens = used ++ rest ∧ Derives .conjunction used e
  conjunctionAfter {before tokens rest : List Token} {left e : Expr}
      (hleft : Derives .conjunction before left)
      (h : Parser.conjunctionAfter fuel left tokens = .ok (e, rest)) :
    ∃ used, tokens = used ++ rest ∧ Derives .conjunction (before ++ used) e
  negation {tokens rest : List Token} {e : Expr}
      (h : Parser.negation fuel tokens = .ok (e, rest)) :
    ∃ used, tokens = used ++ rest ∧ Derives .negation used e
  predicate {tokens rest : List Token} {e : Expr}
      (h : Parser.predicate fuel tokens = .ok (e, rest)) :
    ∃ used, tokens = used ++ rest ∧ Derives .predicate used e

section Step

variable {fuel : Nat} {before tokens rest : List Token} {left e : Expr}

theorem IsSoundAt.alternative_succ (hsound : IsSoundAt fuel)
    (h : Parser.alternative (fuel + 1) tokens = .ok (e, rest)) :
    ∃ used, tokens = used ++ rest ∧ Derives .alternative used e := by
  rw [Parser.alternative] at h
  obtain ⟨⟨first, after⟩, hfirst, hafter⟩ := bind_eq_ok_iff.1 h
  obtain ⟨used, rfl, hused⟩ := hsound.conjunction hfirst
  obtain ⟨more, rfl, hmore⟩ := hsound.alternativeAfter (.conjunction hused) hafter
  exact ⟨used ++ more, by simp, hmore⟩

theorem IsSoundAt.alternativeAfter_succ (hsound : IsSoundAt fuel)
    (hleft : Derives .alternative before left)
    (h : Parser.alternativeAfter (fuel + 1) left tokens = .ok (e, rest)) :
    ∃ used, tokens = used ++ rest ∧ Derives .alternative (before ++ used) e := by
  rw [Parser.alternativeAfter.eq_def] at h
  split at h
  case h_1 => omega
  case h_2 heq =>
    obtain ⟨⟨right, after⟩, hright, hafter⟩ := bind_eq_ok_iff.1 h
    cases heq
    obtain ⟨used, rfl, hused⟩ := hsound.conjunction hright
    obtain ⟨more, rfl, hmore⟩ := hsound.alternativeAfter (.or hleft hused) hafter
    exact ⟨.keyword .or :: used ++ more, by simp, by simpa using hmore⟩
  case h_3 =>
    cases h
    exact ⟨[], rfl, by simpa using hleft⟩

theorem IsSoundAt.conjunction_succ (hsound : IsSoundAt fuel)
    (h : Parser.conjunction (fuel + 1) tokens = .ok (e, rest)) :
    ∃ used, tokens = used ++ rest ∧ Derives .conjunction used e := by
  rw [Parser.conjunction] at h
  obtain ⟨⟨first, after⟩, hfirst, hafter⟩ := bind_eq_ok_iff.1 h
  obtain ⟨used, rfl, hused⟩ := hsound.negation hfirst
  obtain ⟨more, rfl, hmore⟩ := hsound.conjunctionAfter (.negation hused) hafter
  exact ⟨used ++ more, by simp, hmore⟩

theorem IsSoundAt.conjunctionAfter_succ (hsound : IsSoundAt fuel)
    (hleft : Derives .conjunction before left)
    (h : Parser.conjunctionAfter (fuel + 1) left tokens = .ok (e, rest)) :
    ∃ used, tokens = used ++ rest ∧ Derives .conjunction (before ++ used) e := by
  rw [Parser.conjunctionAfter.eq_def] at h
  split at h
  case h_1 => omega
  case h_2 heq =>
    obtain ⟨⟨right, after⟩, hright, hafter⟩ := bind_eq_ok_iff.1 h
    cases heq
    obtain ⟨used, rfl, hused⟩ := hsound.negation hright
    obtain ⟨more, rfl, hmore⟩ := hsound.conjunctionAfter (.and hleft hused) hafter
    exact ⟨.keyword .and :: used ++ more, by simp, by simpa using hmore⟩
  case h_3 =>
    cases h
    exact ⟨[], rfl, by simpa using hleft⟩

theorem IsSoundAt.negation_succ (hsound : IsSoundAt fuel)
    (h : Parser.negation (fuel + 1) tokens = .ok (e, rest)) :
    ∃ used, tokens = used ++ rest ∧ Derives .negation used e := by
  rw [Parser.negation.eq_def] at h
  split at h
  case h_1 => omega
  case h_2 heq =>
    obtain ⟨⟨inner, after⟩, hinner, hend⟩ := bind_eq_ok_iff.1 h
    cases heq
    cases hend
    obtain ⟨used, rfl, hused⟩ := hsound.negation hinner
    exact ⟨.keyword .not :: used, rfl, .not hused⟩
  case h_3 heq _ =>
    cases heq
    obtain ⟨used, rfl, hused⟩ := hsound.predicate h
    exact ⟨used, rfl, .predicate hused⟩

/-- What is read after an operand makes a predicate of it. -/
theorem derives_of_predicateAfter {first : Token} {value : Operand} (hvalue : Denotes first value)
    (h : predicateAfter value tokens = .ok (e, rest)) :
    ∃ used, tokens = used ++ rest ∧ Derives .predicate (first :: used) e := by
  rw [predicateAfter.eq_def] at h
  split at h
  · next op after =>
    obtain ⟨⟨right, last⟩, hright, hend⟩ := bind_eq_ok_iff.1 h
    cases hend
    obtain ⟨second, rfl, hsecond⟩ := operand_eq_ok_iff.1 hright
    exact ⟨[.comparison op, second], rfl, .compare op hvalue hsecond⟩
  · obtain ⟨⟨low, after⟩, hlow, h⟩ := bind_eq_ok_iff.1 h
    obtain ⟨other, hand, h⟩ := bind_eq_ok_iff.1 h
    obtain ⟨⟨high, last⟩, hhigh, hend⟩ := bind_eq_ok_iff.1 h
    cases hend
    obtain ⟨second, rfl, hsecond⟩ := operand_eq_ok_iff.1 hlow
    obtain rfl := expect_eq_ok_iff.1 hand
    obtain ⟨third, rfl, hthird⟩ := operand_eq_ok_iff.1 hhigh
    exact ⟨[.keyword .between, second, .keyword .and, third], rfl,
      .between hvalue hsecond hthird⟩
  · obtain ⟨⟨list, last⟩, hlist, hend⟩ := bind_eq_ok_iff.1 h
    cases hend
    obtain ⟨used, rfl, hused⟩ := derivesList_of_operands hlist
    exact ⟨.keyword .in :: .opening :: (used ++ [.closing]), by simp, .member hvalue hused⟩
  · rw [unexpected.eq_def] at h
    split at h <;> cases h

theorem IsSoundAt.predicate_succ (hsound : IsSoundAt fuel)
    (h : Parser.predicate (fuel + 1) tokens = .ok (e, rest)) :
    ∃ used, tokens = used ++ rest ∧ Derives .predicate used e := by
  rw [Parser.predicate.eq_def] at h
  split at h
  case h_1 => omega
  case h_2 heq =>
    obtain ⟨⟨inner, after⟩, hinner, h⟩ := bind_eq_ok_iff.1 h
    obtain ⟨last, hlast, hend⟩ := bind_eq_ok_iff.1 h
    cases heq
    cases hend
    obtain ⟨used, rfl, hused⟩ := hsound.alternative hinner
    obtain rfl := expect_eq_ok_iff.1 hlast
    exact ⟨.opening :: (used ++ [.closing]), by simp, .enclosed hused⟩
  case h_3 f after heq =>
    obtain ⟨⟨arguments, last⟩, harguments, hend⟩ := bind_eq_ok_iff.1 h
    cases hend
    obtain ⟨used, rfl, hused⟩ := derivesList_of_operands harguments
    exact ⟨.function f :: .opening :: (used ++ [.closing]), by simp, .call f hused⟩
  case h_4 =>
    obtain ⟨⟨value, after⟩, hvalue, hafter⟩ := bind_eq_ok_iff.1 h
    obtain ⟨first, rfl, hfirst⟩ := operand_eq_ok_iff.1 hvalue
    obtain ⟨used, rfl, hused⟩ := derives_of_predicateAfter hfirst hafter
    exact ⟨first :: used, rfl, hused⟩

end Step

/-- The parser reads nothing but what is derived. -/
theorem isSoundAt (fuel : Nat) : IsSoundAt fuel := by
  induction fuel with
  | zero => constructor <;> intros <;> contradiction
  | succ fuel ih =>
    exact {
      alternative := ih.alternative_succ
      alternativeAfter := ih.alternativeAfter_succ
      conjunction := ih.conjunction_succ
      conjunctionAfter := ih.conjunctionAfter_succ
      negation := ih.negation_succ
      predicate := ih.predicate_succ }

end Parser

end KeyedStore
