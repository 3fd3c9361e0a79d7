import KeyedStore.Expression.Printer
import KeyedStore.Expression.Token

/-!
# Scanning printed expressions

A printed expression is read as the tokens it is made of. `Token.Reads` says so of a piece of text
in any place where no word goes on after it, so that the pieces of a text can be read one by one.
-/
namespace KeyedStore

namespace Token

/-- Whether a run of characters ends before a text: the text is empty or starts with a character of
no word. -/
def EndsRun (rest : List Char) : Prop := ∀ c ∈ rest.head?, isWordChar c = false

theorem endsRun_nil : EndsRun [] := by simp [EndsRun]

theorem endsRun_cons {c : Char} (hc : isWordChar c = false) (rest : List Char) :
    EndsRun (c :: rest) := by simpa [EndsRun] using hc

/-- The characters of a word join the run before them. -/
theorem scanAfter_append {run word : List Char} (hrun : run ≠ [])
    (hword : ∀ c ∈ word, isWordChar c) (rest : List Char) :
    scanAfter run (word ++ rest) = scanAfter (word.reverse ++ run) rest := by
  induction word generalizing run with
  | nil => rfl
  | cons c word ih =>
    have hc : isWordChar c = true := hword c (by simp)
    have hempty : run.isEmpty = false := by simpa using hrun
    rw [List.cons_append, scanAfter, hc, hempty]
    simpa using @ih (c :: run) (by simp) fun c h => hword c (by simp [h])

/-- A run starts. -/
theorem scanAfter_of_startsRun {c : Char} (hc : startsRun c) (text : List Char) :
    scanAfter [] (c :: text) = scanAfter [c] text := by
  rw [scanAfter]
  simp only [hc, List.isEmpty_nil, Bool.not_true, Bool.and_false, Bool.false_eq_true, if_false,
    if_true]
  cases scanAfter [c] text <;> rfl

/-- Where a run ends, its token comes before those of the rest. -/
theorem scanAfter_of_endsRun {run rest : List Char} (hrest : EndsRun rest) :
    scanAfter run rest = do
      let before ← ofRun run.reverse
      let after ← scanAfter [] rest
      return before ++ after := by
  have hnil : ofRun [] = .ok [] := rfl
  cases rest with
  | nil =>
    rw [scanAfter, scanAfter]
    cases ofRun run.reverse <;> simp [hnil, bind, Except.bind, pure, Except.pure]
  | cons c rest =>
    have hc : isWordChar c = false := hrest c (by simp)
    rw [scanAfter, scanAfter]
    simp only [hc, Bool.false_and, Bool.false_eq_true, if_false, List.reverse_nil, hnil]
    cases ofRun run.reverse with
    | error e => rfl
    | ok before =>
      simp only [bind, Except.bind, pure, Except.pure]
      split
      · cases scanAfter [c] rest <;> simp
      split
      · cases scanAfter [] rest <;> simp
      split <;> first | (cases scanAfter [] _ <;> simp) | rfl

/-- Whether a text is read as some tokens wherever no word goes on after it. -/
def Reads (text : List Char) (tokens : List Token) : Prop :=
  ∀ rest, EndsRun rest → scanAfter [] (text ++ rest) = (tokens ++ ·) <$> scanAfter [] rest

theorem Reads.scan {text : String} {tokens : List Token} (h : Reads text.toList tokens) :
    Token.scan text = .ok tokens := by
  have := h [] endsRun_nil
  simpa [Token.scan, scanAfter, ofRun, Functor.map, Except.map] using this

/-- A text goes on with another one that starts with a character of no word. -/
theorem Reads.append {first second : List Char} {before after : List Token} {c : Char}
    (hfirst : Reads first before) (hc : isWordChar c = false)
    (hsecond : Reads (c :: second) after) :
    Reads (first ++ c :: second) (before ++ after) := by
  intro rest hrest
  have hsplit : first ++ c :: second ++ rest = first ++ c :: (second ++ rest) := by simp
  rw [hsplit, hfirst _ (endsRun_cons hc _), ← List.cons_append, hsecond rest hrest]
  cases scanAfter [] rest <;> simp [Functor.map, Except.map]

/-- White space in front of a text is ignored. -/
theorem Reads.blank {text : List Char} {tokens : List Token} (h : Reads text tokens) :
    Reads (' ' :: text) tokens := by
  intro rest hrest
  have hskip : scanAfter [] (' ' :: (text ++ rest)) = scanAfter [] (text ++ rest) := by
    simp [scanAfter, isWordChar, startsRun, Text.isAsciiBlank, ofRun, bind, Except.bind, pure,
      Except.pure]
    cases scanAfter [] (text ++ rest) <;> rfl
  exact hskip.trans (h rest hrest)

/-- Two texts with white space between them. -/
theorem Reads.append_blank {first second : List Char} {before after : List Token}
    (hfirst : Reads first before) (hsecond : Reads second after) :
    Reads (first ++ ' ' :: second) (before ++ after) :=
  hfirst.append rfl hsecond.blank

/-- The marks that are tokens by themselves. -/
theorem scanAfter_mark (text : List Char) :
    scanAfter [] (',' :: text) = (comma :: ·) <$> scanAfter [] text ∧
      scanAfter [] ('(' :: text) = (opening :: ·) <$> scanAfter [] text ∧
      scanAfter [] (')' :: text) = (closing :: ·) <$> scanAfter [] text := by
  refine ⟨?_, ?_, ?_⟩ <;>
    simp [scanAfter, isWordChar, startsRun, Text.isAsciiBlank, ofRun, bind, Except.bind, pure,
      Except.pure, Functor.map, Except.map]

theorem Reads.comma {text : List Char} {tokens : List Token} (h : Reads text tokens) :
    Reads (',' :: text) (.comma :: tokens) := by
  intro rest hrest
  rw [List.cons_append, (scanAfter_mark _).1, h rest hrest]
  cases scanAfter [] rest <;> rfl

/-- A text between parentheses. -/
theorem Reads.enclosed {text : List Char} {tokens : List Token} (h : Reads text tokens) :
    Reads ('(' :: (text ++ [')'])) (.opening :: (tokens ++ [.closing])) := by
  intro rest hrest
  have hsplit : '(' :: (text ++ [')']) ++ rest = '(' :: (text ++ (')' :: rest)) := by simp
  rw [hsplit, (scanAfter_mark _).2.1, h _ (endsRun_cons rfl _), (scanAfter_mark _).2.2]
  cases scanAfter [] rest <;> simp [Functor.map, Except.map]

/-- The symbol of a comparison, which must not run into what follows. -/
theorem Reads.symbol {text : List Char} {tokens : List Token} (op : Comparison)
    (h : Reads text tokens) :
    Reads (op.symbol.toList ++ ' ' :: text) (.comparison op :: tokens) := by
  intro rest hrest
  have hfirst (text : List Char) : scanAfter [] (op.symbol.toList ++ ' ' :: text) =
      (Token.comparison op :: ·) <$> scanAfter [] text := by
    cases op <;>
      simp [Comparison.symbol, scanAfter, isWordChar, startsRun, Text.isAsciiBlank, ofRun, bind,
        Except.bind, pure, Except.pure, Functor.map, Except.map] <;>
      cases scanAfter [] text <;> rfl
  have hsplit : op.symbol.toList ++ ' ' :: text ++ rest =
      op.symbol.toList ++ ' ' :: (text ++ rest) := by simp
  rw [hsplit, hfirst, h rest hrest]
  cases scanAfter [] rest <;> rfl

/-- Whether a text is one run of characters that is read as a token. -/
def IsRun (text : List Char) (token : Token) : Prop :=
  text.head?.any startsRun ∧ text.tail.all isWordChar ∧ ofRun text = .ok [token]

theorem IsRun.reads {text : List Char} {token : Token} (h : IsRun text token) :
    Reads text [token] := by
  obtain ⟨hhead, htail, htoken⟩ := h
  cases text with
  | nil => simp at hhead
  | cons c word =>
  have hc : startsRun c = true := by simpa using hhead
  have hword : ∀ x ∈ word, isWordChar x := by simpa using htail
  intro rest hrest
  rw [List.cons_append, scanAfter_of_startsRun hc, scanAfter_append (by simp) hword,
    scanAfter_of_endsRun hrest]
  simp only [List.reverse_append, List.reverse_reverse, List.reverse_singleton, List.cons_append,
    List.nil_append, htoken]
  cases scanAfter [] rest <;> rfl

theorem isRun_keyword (k : Keyword) : IsRun k.name.toList (keyword k) := by
  cases k <;> exact ⟨by decide, by decide, rfl⟩

theorem isRun_function (f : ConditionFunction) : IsRun f.name.toList (function f) := by
  cases f <;> exact ⟨by decide, by decide, rfl⟩

end Token

/-- The token that an operand is written as. -/
def Operand.token : Operand → Token
  | .path text => if text.toList.head? = some '#' then .name text else .word text
  | .value text => .value text

/-- Whether an operand is written as one run of characters that is read as its token. -/
def Operand.IsLexical (operand : Operand) : Prop :=
  Token.IsRun operand.text.toList operand.token

theorem Operand.IsLexical.reads {operand : Operand} (h : operand.IsLexical) :
    Token.Reads operand.text.toList [operand.token] := Token.IsRun.reads h

namespace Expr

/-- Tokens between parentheses where they are needed. -/
def enclose (needed : Bool) (tokens : List Token) : List Token :=
  if needed then .opening :: (tokens ++ [.closing]) else tokens

/-- The tokens of operands with commas between them. -/
def operandTokens : List Operand → List Token
  | [] => []
  | first :: others => first.token :: others.flatMap fun operand => [.comma, operand.token]

/-- The tokens of an expression, with parentheses where its text has them. -/
def tokens : Expr → List Token
  | compare left op right => [left.token, .comparison op, right.token]
  | between value low high =>
    [value.token, .keyword .between, low.token, .keyword .and, high.token]
  | member value list => value.token :: .keyword .in :: enclose true (operandTokens list)
  | and left right =>
    enclose (left.level < 1) left.tokens ++ .keyword .and :: enclose (right.level < 2) right.tokens
  | or left right => left.tokens ++ .keyword .or :: enclose (right.level < 1) right.tokens
  | not inner => .keyword .not :: enclose (inner.level < 2) inner.tokens
  | call function arguments => .function function :: enclose true (operandTokens arguments)

/-- Whether all operands of an expression can be written, and its lists are not empty. -/
def IsLexical : Expr → Prop
  | compare left _ right => left.IsLexical ∧ right.IsLexical
  | between value low high => value.IsLexical ∧ low.IsLexical ∧ high.IsLexical
  | member value list => value.IsLexical ∧ list ≠ [] ∧ ∀ operand ∈ list, operand.IsLexical
  | and left right | or left right => left.IsLexical ∧ right.IsLexical
  | not inner => inner.IsLexical
  | call _ arguments => arguments ≠ [] ∧ ∀ operand ∈ arguments, operand.IsLexical

theorem toList_commaSeparated (first : String) (others : List String) :
    (commaSeparated (first :: others)).toList =
      first.toList ++ others.flatMap fun text => ',' :: ' ' :: text.toList := by
  induction others generalizing first with
  | nil => simp [commaSeparated]
  | cons second others ih =>
    have htail := ih second
    simp only [commaSeparated] at htail ⊢
    rw [String.intercalate_cons_cons]
    simp [htail]

/-- Texts with commas between them are read one by one. -/
theorem reads_commaSeparated {α : Type} {text : α → String} {tokens : α → List Token} {first : α}
    {others : List α} (h : ∀ a ∈ first :: others, Token.Reads (text a).toList (tokens a)) :
    Token.Reads (commaSeparated ((first :: others).map text)).toList
      (tokens first ++ others.flatMap fun a => .comma :: tokens a) := by
  rw [List.map_cons, toList_commaSeparated]
  induction others generalizing first with
  | nil => simpa using h first (by simp)
  | cons second others ih =>
    have htail := ih fun a hmem => h a (List.mem_cons_of_mem _ hmem)
    have hfirst := h first (by simp)
    simpa using hfirst.append rfl htail.blank.comma

/-- Operands in parentheses are read one by one. -/
theorem reads_operands {operands : List Operand} (hne : operands ≠ [])
    (h : ∀ operand ∈ operands, operand.IsLexical) :
    Token.Reads ('(' :: ((commaSeparated (operands.map Operand.text)).toList ++ [')']))
      (enclose true (operandTokens operands)) := by
  obtain ⟨first, others, rfl⟩ := List.exists_cons_of_ne_nil hne
  exact (reads_commaSeparated fun operand hmem => (h operand hmem).reads).enclosed

theorem reads_parenthesize {needed : Bool} {text : String} {tokens : List Token}
    (h : Token.Reads text.toList tokens) :
    Token.Reads (parenthesize needed text).toList (enclose needed tokens) := by
  cases needed with
  | false => simpa [parenthesize, enclose] using h
  | true => simpa [parenthesize, enclose] using h.enclosed

/-- A printed expression is read as its tokens. -/
theorem reads_print {e : Expr} (h : e.IsLexical) : Token.Reads e.print.toList e.tokens := by
  induction e with
  | compare left op right =>
    simpa [print, tokens] using h.1.reads.append_blank (h.2.reads.symbol op)
  | between value low high =>
    have hbetween := (Token.isRun_keyword .between).reads
    have hand := (Token.isRun_keyword .and).reads
    obtain ⟨hvalue, hlow, hhigh⟩ := h
    simpa [print, tokens, Keyword.name] using hvalue.reads.append_blank
      (hbetween.append_blank (hlow.reads.append_blank (hand.append_blank hhigh.reads)))
  | member value list =>
    obtain ⟨hvalue, hne, hlist⟩ := h
    simpa [print, tokens, Keyword.name] using hvalue.reads.append_blank
      ((Token.isRun_keyword .in).reads.append_blank (reads_operands hne hlist))
  | and left right ihl ihr =>
    simpa [print, tokens, Keyword.name] using
      (reads_parenthesize (ihl h.1)).append_blank
        ((Token.isRun_keyword .and).reads.append_blank (reads_parenthesize (ihr h.2)))
  | or left right ihl ihr =>
    simpa [print, tokens, Keyword.name] using
      (ihl h.1).append_blank
        ((Token.isRun_keyword .or).reads.append_blank (reads_parenthesize (ihr h.2)))
  | not inner ih =>
    simpa [print, tokens, Keyword.name] using
      (Token.isRun_keyword .not).reads.append_blank (reads_parenthesize (ih h))
  | call function arguments =>
    obtain ⟨hne, harguments⟩ := h
    simpa [print, tokens] using
      (Token.isRun_function function).reads.append rfl (reads_operands hne harguments)

/-- The tokens of a printed expression. -/
theorem scan_print {e : Expr} (h : e.IsLexical) : Token.scan e.print = .ok e.tokens :=
  (reads_print h).scan

end Expr

end KeyedStore
