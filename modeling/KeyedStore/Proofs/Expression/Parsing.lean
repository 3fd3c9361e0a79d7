import KeyedStore.Proofs.Expression.Grammar
import KeyedStore.Proofs.Expression.Lexing

/-!
# Parsing conditions

A text is parsed as a condition if its tokens derive one, and as no other. The tokens of a printed
condition derive it, so every text with these tokens is parsed as it, whatever its white space and
the case of its keywords.
-/
namespace KeyedStore

open Grammar

/-! ## Deciding what can be written -/

instance (text : List Char) (token : Token) : Decidable (Token.IsRun text token) :=
  inferInstanceAs (Decidable (_ ∧ _ ∧ _))

instance : DecidablePred Operand.IsLexical := fun operand =>
  inferInstanceAs (Decidable (Token.IsRun operand.text.toList operand.token))

instance Expr.decidableIsLexical : DecidablePred Expr.IsLexical
  | .compare left _ right => inferInstanceAs (Decidable (left.IsLexical ∧ right.IsLexical))
  | .between value low high =>
    inferInstanceAs (Decidable (value.IsLexical ∧ low.IsLexical ∧ high.IsLexical))
  | .member value list =>
    inferInstanceAs
      (Decidable (value.IsLexical ∧ list ≠ [] ∧ ∀ operand ∈ list, operand.IsLexical))
  | .and left right | .or left right =>
    @instDecidableAnd _ _ (decidableIsLexical left) (decidableIsLexical right)
  | .not inner => decidableIsLexical inner
  | .call _ arguments =>
    inferInstanceAs (Decidable (arguments ≠ [] ∧ ∀ operand ∈ arguments, operand.IsLexical))

/-! ## Printed conditions -/

theorem Operand.denotes_token (operand : Operand) : Denotes operand.token operand := by
  cases operand with
  | path text =>
    rw [Operand.token]
    split
    · exact .name text
    · exact .word text
  | value text => exact .value text

/-- The token of an operand is read as it. -/
theorem Parser.operand_token (operand : Operand) (rest : List Token) :
    Parser.operand (operand.token :: rest) = .ok (operand, rest) :=
  operand_cons operand.denotes_token rest

namespace Expr

theorem derivesList_operandTokens {list : List Operand} (hne : list ≠ []) :
    DerivesList (operandTokens list) list := by
  obtain ⟨first, others, rfl⟩ := List.exists_cons_of_ne_nil hne
  induction others generalizing first with
  | nil => exact .one first.denotes_token
  | cons second others ih => exact .more first.denotes_token (ih second (by simp))

/-- The tokens of an expression derive it as each phrase that it may stand as. -/
structure IsDerived (e : Expr) : Prop where
  negation : 2 ≤ e.level → Derives .negation e.tokens e
  conjunction : 1 ≤ e.level → Derives .conjunction e.tokens e
  alternative : Derives .alternative e.tokens e

namespace IsDerived

variable {e : Expr}

theorem of_negation (h : Derives .negation e.tokens e) : e.IsDerived where
  negation _ := h
  conjunction _ := .negation h
  alternative := .conjunction (.negation h)

theorem of_conjunction (hlevel : e.level = 1) (h : Derives .conjunction e.tokens e) :
    e.IsDerived where
  negation := by omega
  conjunction _ := h
  alternative := .conjunction h

/-- A negation stands in parentheses where its expression is a chain. -/
theorem enclose_negation (h : e.IsDerived) :
    Derives .negation (enclose (e.level < 2) e.tokens) e := by
  by_cases hlevel : e.level < 2
  · simpa [hlevel, enclose] using Derives.predicate (.enclosed h.alternative)
  · simpa [hlevel, enclose] using h.negation (by omega)

theorem enclose_conjunction (h : e.IsDerived) :
    Derives .conjunction (enclose (e.level < 1) e.tokens) e := by
  by_cases hlevel : e.level < 1
  · simpa [hlevel, enclose] using Derives.negation (.predicate (.enclosed h.alternative))
  · simpa [hlevel, enclose] using h.conjunction (by omega)

end IsDerived

theorem isDerived {e : Expr} (h : e.IsLexical) : e.IsDerived := by
  induction e with
  | compare left op right =>
    exact .of_negation (.predicate (.compare op left.denotes_token right.denotes_token))
  | between value low high =>
    exact .of_negation
      (.predicate (.between value.denotes_token low.denotes_token high.denotes_token))
  | member value list =>
    exact .of_negation
      (.predicate (.member value.denotes_token (derivesList_operandTokens h.2.1)))
  | call function arguments =>
    exact .of_negation (.predicate (.call function (derivesList_operandTokens h.1)))
  | not inner ih => exact .of_negation (.not (ih h).enclose_negation)
  | and left right ihl ihr =>
    exact .of_conjunction rfl (.and (ihl h.1).enclose_conjunction (ihr h.2).enclose_negation)
  | or left right ihl ihr =>
    refine ⟨by simp [level], by simp [level], ?_⟩
    exact .or (ihl h.1).alternative (ihr h.2).enclose_conjunction

/-! ## Parsed conditions -/

/-- A text is parsed as what its tokens derive. -/
theorem parse_eq_ok_iff {text : String} {e : Expr} :
    parse text = .ok e ↔
      ∃ tokens, Token.Lexes text.toList tokens ∧ Derives .alternative tokens e := by
  constructor
  · intro h
    obtain ⟨tokens, htokens, hafter⟩ := bind_eq_ok_iff.1 h
    obtain ⟨⟨parsed, rest⟩, hparsed, hend⟩ := bind_eq_ok_iff.1 hafter
    obtain ⟨used, rfl, hused⟩ := (Parser.isSoundAt _).alternative hparsed
    cases rest with
    | nil =>
      cases hend
      exact ⟨_, Token.scan_eq_ok_iff.1 htokens, by simpa using hused⟩
    | cons token rest => cases hend
  · rintro ⟨tokens, htokens, he⟩
    simp [parse, Token.scan_eq_ok_iff.2 htokens, Parser.alternative_of_derives he]

/-- Every text of the tokens of a condition is parsed as it. -/
theorem parse_of_lexes {e : Expr} (h : e.IsLexical) {text : String}
    (htext : Token.Lexes text.toList e.tokens) : parse text = .ok e :=
  parse_eq_ok_iff.2 ⟨e.tokens, htext, (isDerived h).alternative⟩

/-- A printed expression is parsed as itself. -/
theorem parse_print {e : Expr} (h : e.IsLexical) : parse e.print = .ok e :=
  parse_of_lexes h (Token.scan_eq_ok_iff.1 (scan_print h))

theorem isLexical_conjunction? {exprs : List Expr} (h : ∀ e ∈ exprs, e.IsLexical) {e : Expr}
    (he : conjunction? exprs = some e) : e.IsLexical := by
  cases exprs with
  | nil => cases he
  | cons first rest =>
    cases he
    induction rest generalizing first with
    | nil => exact h first (by simp)
    | cons second rest ih =>
      refine ih (.and first second) ?_
      intro e hmem
      rcases List.mem_cons.1 hmem with rfl | hmem
      · exact ⟨h first (by simp), h second (by simp)⟩
      · exact h e (by simp [hmem])

/-- A conjunction of expressions is read back from its text. -/
theorem parse_conjunction? {exprs : List Expr} (h : ∀ e ∈ exprs, e.IsLexical) {e : Expr}
    (he : conjunction? exprs = some e) : parse e.print = .ok e :=
  parse_print (isLexical_conjunction? h he)

/-! ## The grammar -/

/-- The grammar is what is parsed: a text is parsed as an expression if it lexes and its tokens
derive the expression, which is the only one, and fails otherwise. So an expression whose operands
can be written and whose lists are not empty is parsed back from every text of its tokens, where
parentheses stand only as they are needed. Among these texts are the printed one, and all that have
any white space after each token and keywords and names of functions in any letter case. -/
theorem parse_accepts_grammar :
    (∀ (text : String) (e : Expr), parse text = .ok e ↔
      ∃ tokens, Token.Lexes text.toList tokens ∧ Derives .alternative tokens e) ∧
    (∀ text : String,
      (¬∃ (e : Expr) (tokens : List Token),
        Token.Lexes text.toList tokens ∧ Derives .alternative tokens e) →
      ∃ error, parse text = .error error) ∧
    (∀ (text : List Char) (tokens tokens' : List Token) (e e' : Expr),
      Token.Lexes text tokens → Derives .alternative tokens e →
      Token.Lexes text tokens' → Derives .alternative tokens' e' → tokens = tokens' ∧ e = e') ∧
    ∀ e : Expr, e.IsLexical →
      Token.Lexes e.print.toList e.tokens ∧
      (∀ text : String, Token.Lexes text.toList e.tokens → parse text = .ok e) ∧
      ∀ pieces, List.Forall₂ Token.IsPiece pieces e.tokens →
        parse (String.ofList (Token.spaced pieces)) = .ok e := by
  refine ⟨fun text e => parse_eq_ok_iff, ?_, ?_, ?_⟩
  · intro text hnone
    cases hparse : parse text with
    | error error => exact ⟨error, rfl⟩
    | ok e =>
      obtain ⟨tokens, hderived⟩ := parse_eq_ok_iff.1 hparse
      exact absurd ⟨e, tokens, hderived⟩ hnone
  · intro text tokens tokens' e e' htokens he htokens' he'
    obtain rfl := htokens.unique htokens'
    exact ⟨rfl, Parser.eq_of_derives he he'⟩
  · intro e he
    refine ⟨Token.scan_eq_ok_iff.1 (scan_print he), fun text => parse_of_lexes he, ?_⟩
    intro pieces hpieces
    apply parse_of_lexes he
    rw [String.toList_ofList]
    exact Token.lexes_spaced hpieces

/-- A condition with a chain in parentheses and chains without. -/
def guarded : Expr :=
  .or
    (.and
      (.not (.or (.call .attributeExists [.path "a"]) (.compare (.path "#b") .le (.value ":1"))))
      (.between (.path "c") (.value ":2") (.value ":3")))
    (.member (.path "in_") [.value ":4", .path "d"])

/-- A text of its tokens, unlike the printed one. -/
def guardedText : String :=
  "nOt(ATTRIBUTE_exists ( a )\tor #b<=:1)and c Between:2 AND :3\nOR\x0din_ iN(:4,d)"

theorem parse_accepts_grammar_guarded :
    guarded.IsLexical ∧ Token.Lexes guardedText.toList guarded.tokens ∧
      parse guardedText = .ok guarded := by
  have hlexical : guarded.IsLexical := by decide +kernel
  have hlexes : Token.Lexes guardedText.toList guarded.tokens :=
    Token.scan_eq_ok_iff.1 (by decide +kernel)
  exact ⟨hlexical, hlexes, (parse_accepts_grammar.2.2.2 guarded hlexical).2.1 guardedText hlexes⟩

end Expr

end KeyedStore
