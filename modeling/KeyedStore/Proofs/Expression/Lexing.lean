import Mathlib.Data.List.Forall2
import Mathlib.Data.List.TakeWhile
import KeyedStore.Proofs.Except
import KeyedStore.Proofs.Expression.Scanning

/-!
# Lexing expressions

What the tokens of a text are, said without the scanner: every token has its spellings, and a text
is cut from the left into the longest spellings, with white space between them as it pleases.
`scan_eq_ok_iff` shows that the scanner finds these tokens, and fails on a text that has none.

## Main definitions

* `Token.Spells` — the texts that a token is written as.
* `Token.Lexes` — the tokens of a text.
* `Token.spaced` — texts made of spellings with white space after each.
-/
namespace KeyedStore.Token

/-- Texts that differ in the case of ASCII letters only. -/
def SameLetters (a b : List Char) : Prop := a.map Char.toLower = b.map Char.toLower

/-- The texts that a token is written as. -/
inductive Spells : List Char → Token → Prop
  | name {word : List Char} (hne : word ≠ []) (hword : ∀ c ∈ word, isWordChar c) :
      Spells ('#' :: word) (.name (String.ofList ('#' :: word)))
  | value {word : List Char} (hne : word ≠ []) (hword : ∀ c ∈ word, isWordChar c) :
      Spells (':' :: word) (.value (String.ofList (':' :: word)))
  | keyword {text : List Char} (k : Keyword) (h : SameLetters text k.name.toList) :
      Spells text (.keyword k)
  | function {text : List Char} (f : ConditionFunction) (h : SameLetters text f.name.toList) :
      Spells text (.function f)
  /-- Keywords and names of functions are no names of attributes. -/
  | word {first : Char} {text : List Char} (hfirst : first.isAlpha ∨ first = '_')
      (htext : ∀ c ∈ text, isWordChar c)
      (hkeyword : ∀ k : Keyword, ¬SameLetters (first :: text) k.name.toList)
      (hfunction : ∀ f : ConditionFunction, ¬SameLetters (first :: text) f.name.toList) :
      Spells (first :: text) (.word (String.ofList (first :: text)))
  | comparison (op : Comparison) : Spells op.symbol.toList (.comparison op)
  | comma : Spells [','] .comma
  | opening : Spells ['('] .opening
  | closing : Spells [')'] .closing

/-- The tokens of a text. No token is written shorter than it could be: one more character of the
text would make it the spelling of none. -/
inductive Lexes : List Char → List Token → Prop
  | nil : Lexes [] []
  | blank {c : Char} {text : List Char} {tokens : List Token} (hc : Text.isAsciiBlank c)
      (h : Lexes text tokens) : Lexes (c :: text) tokens
  | token {spelling rest : List Char} {token : Token} {tokens : List Token}
      (hspells : Spells spelling token)
      (hlongest : ∀ c ∈ rest.head?, ∀ other, ¬Spells (spelling ++ [c]) other)
      (h : Lexes rest tokens) : Lexes (spelling ++ rest) (token :: tokens)

/-- Spellings one after another, each with white space after it. -/
def spaced (pieces : List (List Char × List Char)) : List Char :=
  pieces.flatMap fun piece => piece.1 ++ piece.2

/-- A spelling of a token with some white space. -/
def IsPiece (piece : List Char × List Char) (token : Token) : Prop :=
  Spells piece.1 token ∧ piece.2 ≠ [] ∧ ∀ c ∈ piece.2, Text.isAsciiBlank c

/-! ## Runs of characters -/

theorem toLower_of_not_isAlpha {c : Char} (h : ¬c.isAlpha) : c.toLower = c := by
  unfold Char.toLower
  refine dif_neg fun hupper => h ?_
  have hc : c.isUpper = true := decide_eq_true hupper
  show (c.isUpper || c.isLower) = true
  rw [hc, Bool.true_or]

theorem isAlpha_of_toLower {c : Char} (h : c.toLower.isAlpha) : c.isAlpha := by
  by_cases halpha : c.isAlpha
  · exact halpha
  · rwa [toLower_of_not_isAlpha halpha] at h

theorem isWordChar_of_toLower {c : Char} (h : isWordChar c.toLower) : isWordChar c := by
  by_cases halpha : c.isAlpha
  · simp [isWordChar, Char.isAlphanum, halpha]
  · rwa [toLower_of_not_isAlpha halpha] at h

/-- What is written like a word in other letters is a word. -/
theorem SameLetters.word {text word : List Char} (h : SameLetters text word)
    (hhead : (word.map Char.toLower).head?.any Char.isAlpha)
    (hword : (word.map Char.toLower).all isWordChar) :
    ∃ first rest, text = first :: rest ∧ first.isAlpha ∧ ∀ c ∈ rest, isWordChar c := by
  rw [← h] at hhead hword
  cases text with
  | nil => simp at hhead
  | cons first rest =>
    simp only [List.map_cons, List.head?_cons, Option.any_some, List.all_cons, List.all_map,
      Bool.and_eq_true, List.all_eq_true, Function.comp_apply] at hhead hword
    refine ⟨first, rest, rfl, isAlpha_of_toLower hhead, ?_⟩
    intro c hc
    exact isWordChar_of_toLower (hword.2 c hc)

theorem ofWord_of_keyword {text : List Char} {k : Keyword} (h : SameLetters text k.name.toList) :
    ofWord (String.ofList text) = .keyword k := by
  rw [ofWord, String.toList_ofList, h]
  cases k <;> rfl

theorem ofWord_of_function {text : List Char} {f : ConditionFunction}
    (h : SameLetters text f.name.toList) : ofWord (String.ofList text) = .function f := by
  rw [ofWord, String.toList_ofList, h]
  cases f <;> rfl

/-- A word is a keyword, the name of a function, or neither. -/
theorem ofWord_cases (text : List Char) :
    (∃ k : Keyword, SameLetters text k.name.toList) ∨
      (∃ f : ConditionFunction, SameLetters text f.name.toList) ∨
      ofWord (String.ofList text) = .word (String.ofList text) := by
  have hlower {name : String} (h : String.ofList (text.map Char.toLower) = name) :
      text.map Char.toLower = name.toList := by rw [← h, String.toList_ofList]
  rw [ofWord, String.toList_ofList]
  split
  case h_1 h => exact .inl ⟨.and, hlower h⟩
  case h_2 h => exact .inl ⟨.or, hlower h⟩
  case h_3 h => exact .inl ⟨.not, hlower h⟩
  case h_4 h => exact .inl ⟨.between, hlower h⟩
  case h_5 h => exact .inl ⟨.in, hlower h⟩
  case h_6 h => exact .inl ⟨.set, hlower h⟩
  case h_7 h => exact .inl ⟨.remove, hlower h⟩
  case h_8 h => exact .inr (.inl ⟨.attributeExists, hlower h⟩)
  case h_9 h => exact .inr (.inl ⟨.attributeNotExists, hlower h⟩)
  case h_10 h => exact .inr (.inl ⟨.beginsWith, hlower h⟩)
  case h_11 => exact .inr (.inr rfl)

theorem ofRun_word {first : Char} (text : List Char) (hname : first ≠ '#') (hvalue : first ≠ ':') :
    ofRun (first :: text) = .ok [ofWord (String.ofList (first :: text))] := by
  rw [ofRun] <;> grind

theorem startsRun_iff {c : Char} : startsRun c ↔ c = '#' ∨ c = ':' ∨ c.isAlpha ∨ c = '_' := by
  simp only [startsRun, Bool.or_eq_true, beq_iff_eq]
  grind

theorem isRun_word {first : Char} {text : List Char} (hfirst : first.isAlpha ∨ first = '_')
    (htext : ∀ c ∈ text, isWordChar c) :
    IsRun (first :: text) (ofWord (String.ofList (first :: text))) := by
  have hstarts : startsRun first := startsRun_iff.2 (.inr (.inr hfirst))
  have hname : first ≠ '#' := by
    rintro rfl
    revert hfirst
    decide
  have hvalue : first ≠ ':' := by
    rintro rfl
    revert hfirst
    decide
  exact ⟨by simpa using hstarts, by simpa using htext, ofRun_word text hname hvalue⟩

/-- A run that is a token is written as it. -/
theorem spells_of_isRun {text : List Char} {token : Token} (h : IsRun text token) :
    Spells text token := by
  obtain ⟨hhead, htail, htoken⟩ := h
  cases text with
  | nil => simp at hhead
  | cons first rest =>
  have hrest : ∀ c ∈ rest, isWordChar c := by simpa using htail
  by_cases hname : first = '#'
  · subst hname
    cases rest with
    | nil => simp [ofRun] at htoken
    | cons c rest =>
      cases htoken
      exact .name (by simp) hrest
  by_cases hvalue : first = ':'
  · subst hvalue
    cases rest with
    | nil => simp [ofRun] at htoken
    | cons c rest =>
      cases htoken
      exact .value (by simp) hrest
  have hfirst : first.isAlpha ∨ first = '_' := by
    have hstarts : startsRun first := by simpa using hhead
    rw [startsRun_iff] at hstarts
    grind
  rw [ofRun_word rest hname hvalue] at htoken
  obtain rfl : ofWord (String.ofList (first :: rest)) = token := by simpa using htoken
  obtain ⟨k, hk⟩ | ⟨f, hf⟩ | hword := ofWord_cases (first :: rest)
  · rw [ofWord_of_keyword hk]
    exact .keyword k hk
  · rw [ofWord_of_function hf]
    exact .function f hf
  · rw [hword]
    refine .word hfirst hrest ?_ ?_
    · intro k hk
      rw [ofWord_of_keyword hk] at hword
      cases hword
    · intro f hf
      rw [ofWord_of_function hf] at hword
      cases hword

/-- The tokens that are no runs, with their only spelling. -/
def marks : List (List Char × Token) :=
  [([','], .comma), (['('], .opening), ([')'], .closing), (['='], .comparison .eq),
   (['<', '>'], .comparison .ne), (['<'], .comparison .lt), (['<', '='], .comparison .le),
   (['>'], .comparison .gt), (['>', '='], .comparison .ge)]

theorem Spells.isRun_or_mark {text : List Char} {token : Token} (h : Spells text token) :
    IsRun text token ∨ (text, token) ∈ marks := by
  cases h with
  | name hne hword | value hne hword =>
    obtain ⟨c, word, rfl⟩ := List.exists_cons_of_ne_nil hne
    exact .inl ⟨by simp [startsRun], by simpa using hword, rfl⟩
  | keyword k h =>
    obtain ⟨first, rest, rfl, hfirst, hrest⟩ := h.word (by cases k <;> decide)
      (by cases k <;> decide)
    rw [← ofWord_of_keyword h]
    exact .inl (isRun_word (.inl hfirst) hrest)
  | function f h =>
    obtain ⟨first, rest, rfl, hfirst, hrest⟩ := h.word (by cases f <;> decide)
      (by cases f <;> decide)
    rw [← ofWord_of_function h]
    exact .inl (isRun_word (.inl hfirst) hrest)
  | @word first rest hfirst hrest hkeyword hfunction =>
    obtain ⟨k, hk⟩ | ⟨f, hf⟩ | hword := ofWord_cases (first :: rest)
    · exact absurd hk (hkeyword k)
    · exact absurd hf (hfunction f)
    · rw [← hword]
      exact .inl (isRun_word hfirst hrest)
  | comparison op => cases op <;> exact .inr (by decide)
  | comma | opening | closing => exact .inr (by decide)

theorem spells_of_mem_marks {text : List Char} {token : Token} (h : (text, token) ∈ marks) :
    Spells text token := by
  have hcomparison {text : List Char} (op : Comparison) (h : op.symbol.toList = text) :
      Spells text (.comparison op) := h ▸ .comparison op
  simp only [marks, List.mem_cons, Prod.mk.injEq, List.not_mem_nil, or_false] at h
  obtain ⟨rfl, rfl⟩ | ⟨rfl, rfl⟩ | ⟨rfl, rfl⟩ | ⟨rfl, rfl⟩ | ⟨rfl, rfl⟩ | ⟨rfl, rfl⟩ | ⟨rfl, rfl⟩ |
    ⟨rfl, rfl⟩ | ⟨rfl, rfl⟩ := h
  case inl => exact .comma
  case inr.inl => exact .opening
  case inr.inr.inl => exact .closing
  all_goals exact hcomparison _ rfl

/-- What starts like a mark is one. -/
theorem Spells.mem_marks {first : Char} {text : List Char} {token : Token}
    (h : Spells (first :: text) token) (hfirst : ¬startsRun first) :
    first :: text ∈ marks.map Prod.fst := by
  obtain ⟨hhead, -, -⟩ | hmark := h.isRun_or_mark
  · exact absurd (by simpa using hhead) hfirst
  · exact List.mem_map_of_mem hmark

/-! ## Scanning what lexes -/

section Completeness

variable {text rest : List Char} {token : Token}

/-- A run with something after its first character is a token. -/
theorem exists_isRun {first : Char} {word : List Char} (hfirst : startsRun first)
    (hword : ∀ c ∈ word, isWordChar c) (hne : word ≠ []) :
    ∃ token, IsRun (first :: word) token := by
  obtain ⟨c, rest, rfl⟩ := List.exists_cons_of_ne_nil hne
  have hrun : ∃ token, ofRun (first :: c :: rest) = .ok [token] := by
    obtain rfl | rfl | hword := startsRun_iff.1 hfirst
    · exact ⟨_, rfl⟩
    · exact ⟨_, rfl⟩
    · exact ⟨_, (isRun_word hword (by assumption)).2.2⟩
  obtain ⟨token, htoken⟩ := hrun
  exact ⟨token, by simpa using hfirst, by simpa using hword, htoken⟩

/-- A run that is cut where no spelling goes on ends there. -/
theorem IsRun.endsRun (h : IsRun text token)
    (hlongest : ∀ c ∈ rest.head?, ∀ other, ¬Spells (text ++ [c]) other) : EndsRun rest := by
  intro c hc
  refine Bool.eq_false_iff.2 fun hword => ?_
  obtain ⟨hhead, htail, -⟩ := h
  cases text with
  | nil => simp at hhead
  | cons first word =>
    have hmore : ∀ x ∈ word ++ [c], isWordChar x := by
      intro x hx
      grind
    obtain ⟨other, hother⟩ := exists_isRun (by simpa using hhead) hmore (by simp)
    exact hlongest c hc other (spells_of_isRun hother)

/-- A mark that is cut where no spelling goes on is read by itself. -/
theorem scanAfter_of_mem_marks (h : (text, token) ∈ marks)
    (hlongest : ∀ c ∈ rest.head?, ∀ other, ¬Spells (text ++ [c]) other) :
    scanAfter [] (text ++ rest) = (token :: ·) <$> scanAfter [] rest := by
  have hne (c : Char) (op : Comparison) (hop : op.symbol.toList = text ++ [c]) :
      ∀ others, rest ≠ c :: others := by
    rintro others rfl
    exact hlongest c rfl _ (hop ▸ Spells.comparison op)
  simp only [marks, List.mem_cons, Prod.mk.injEq, List.not_mem_nil, or_false] at h
  obtain ⟨rfl, rfl⟩ | ⟨rfl, rfl⟩ | ⟨rfl, rfl⟩ | ⟨rfl, rfl⟩ | ⟨rfl, rfl⟩ | hlt | ⟨rfl, rfl⟩ | hgt |
    ⟨rfl, rfl⟩ := h
  case inr.inr.inr.inr.inr.inl =>
    obtain ⟨rfl, rfl⟩ := hlt
    have heq := hne '=' .le rfl
    have hgt := hne '>' .ne rfl
    simp [scanAfter, isWordChar, startsRun, Text.isAsciiBlank, ofRun, bind, Except.bind, pure,
      Except.pure, Functor.map, Except.map]
  case inr.inr.inr.inr.inr.inr.inr.inl =>
    obtain ⟨rfl, rfl⟩ := hgt
    have heq := hne '=' .ge rfl
    simp [scanAfter, isWordChar, startsRun, Text.isAsciiBlank, ofRun, bind, Except.bind, pure,
      Except.pure, Functor.map, Except.map]
  all_goals
    simp [scanAfter, isWordChar, startsRun, Text.isAsciiBlank, ofRun, bind, Except.bind, pure,
      Except.pure, Functor.map, Except.map]

/-- A spelling that is cut where no spelling goes on is read as its token. -/
theorem Spells.scanAfter (h : Spells text token)
    (hlongest : ∀ c ∈ rest.head?, ∀ other, ¬Spells (text ++ [c]) other) :
    scanAfter [] (text ++ rest) = (token :: ·) <$> scanAfter [] rest := by
  obtain hrun | hmark := h.isRun_or_mark
  · exact hrun.reads rest (hrun.endsRun hlongest)
  · exact scanAfter_of_mem_marks hmark hlongest

theorem scanAfter_blank {c : Char} (hc : Text.isAsciiBlank c) (rest : List Char) :
    Token.scanAfter [] (c :: rest) = Token.scanAfter [] rest := by
  simp only [Text.isAsciiBlank, Bool.or_eq_true, beq_iff_eq] at hc
  obtain (((rfl | rfl) | rfl) | rfl) | rfl := hc <;>
    · simp [Token.scanAfter, isWordChar, startsRun, Text.isAsciiBlank, ofRun, bind, Except.bind,
        pure, Except.pure]
      cases Token.scanAfter [] rest <;> rfl

/-- The scanner finds the tokens of a text. -/
theorem Lexes.scanAfter {tokens : List Token} (h : Lexes text tokens) :
    scanAfter [] text = .ok tokens := by
  induction h with
  | nil => rfl
  | blank hc _ ih => rw [scanAfter_blank hc, ih]
  | token hspells hlongest _ ih =>
    rw [hspells.scanAfter hlongest, ih]
    rfl

end Completeness

/-! ## Lexing what is scanned -/

section Soundness

variable {text : List Char} {tokens : List Token}

/-- A spelling that starts like a run is one. -/
theorem Spells.isWordChar_of_startsRun {first : Char} {token : Token}
    (h : Spells (first :: text) token) (hfirst : startsRun first) : ∀ c ∈ text, isWordChar c := by
  obtain ⟨-, htail, -⟩ | hmark := h.isRun_or_mark
  · simpa using htail
  · have hmarks : ∀ mark ∈ marks, mark.1.head?.all fun c => !startsRun c := by decide
    have hmark := hmarks _ hmark
    simp [hfirst] at hmark

/-- Where a run starts, its token comes before those of the rest. -/
theorem scanAfter_run {first : Char} (hfirst : startsRun first) (text : List Char) :
    scanAfter [] (first :: text) = do
      let before ← ofRun (first :: text.takeWhile isWordChar)
      let after ← scanAfter [] (text.dropWhile isWordChar)
      return before ++ after := by
  have hword : ∀ c ∈ text.takeWhile isWordChar, isWordChar c := by
    intro c hc
    exact List.mem_takeWhile_imp hc
  have hrest : EndsRun (text.dropWhile isWordChar) := by
    intro c hc
    have := List.head?_dropWhile_not isWordChar text
    grind
  calc scanAfter [] (first :: text)
      = scanAfter [first] (text.takeWhile isWordChar ++ text.dropWhile isWordChar) := by
        rw [scanAfter_of_startsRun hfirst, List.takeWhile_append_dropWhile]
    _ = scanAfter ((text.takeWhile isWordChar).reverse ++ [first]) (text.dropWhile isWordChar) :=
        scanAfter_append (by simp) hword _
    _ = _ := by
        rw [scanAfter_of_endsRun hrest, List.reverse_append, List.reverse_reverse]
        rfl

/-- A run that is read is one token. -/
theorem isRun_of_ofRun {first : Char} {word : List Char} (hfirst : startsRun first)
    (hword : ∀ c ∈ word, isWordChar c) (h : ofRun (first :: word) = .ok tokens) :
    ∃ token, tokens = [token] ∧ IsRun (first :: word) token := by
  have htoken : ∃ token, tokens = [token] := by
    rw [ofRun.eq_def] at h
    split at h <;> grind
  obtain ⟨token, rfl⟩ := htoken
  exact ⟨token, rfl, by simpa using hfirst, by simpa using hword, h⟩

/-- What is no run and no white space starts with a mark. -/
theorem mark_of_scanAfter {c : Char} (hstarts : ¬startsRun c) (hblank : ¬Text.isAsciiBlank c)
    (h : scanAfter [] (c :: text) = .ok tokens) :
    ∃ more rest token after, text = more ++ rest ∧ tokens = token :: after ∧
      Spells (c :: more) token ∧ (∀ x ∈ rest.head?, ∀ other, ¬Spells (c :: more ++ [x]) other) ∧
      scanAfter [] rest = .ok after := by
  have hnil : ofRun [] = .ok [] := rfl
  have hstep (more : List Char) {rest : List Char} (token : Token) (hsplit : text = more ++ rest)
      (hmark : (c :: more, token) ∈ marks)
      (hlongest : ∀ x ∈ rest.head?, c :: more ++ [x] ∉ marks.map Prod.fst)
      (h : (do return [] ++ token :: (← scanAfter [] rest)) = Except.ok tokens) :
      ∃ more rest token after, text = more ++ rest ∧ tokens = token :: after ∧
        Spells (c :: more) token ∧ (∀ x ∈ rest.head?, ∀ other, ¬Spells (c :: more ++ [x]) other) ∧
        scanAfter [] rest = .ok after := by
    obtain ⟨after, hafter, h⟩ := bind_eq_ok_iff.1 h
    cases h
    refine ⟨more, rest, token, after, hsplit, rfl, spells_of_mem_marks hmark, ?_, hafter⟩
    intro x hx other hother
    exact hlongest x hx (hother.mem_marks hstarts)
  rw [scanAfter] at h
  simp only [List.isEmpty_nil, Bool.not_true, Bool.and_false, Bool.false_eq_true, if_false,
    hstarts, hblank, List.reverse_nil, hnil, ok_bind] at h
  split at h
  · exact hstep [] .comma rfl (by decide) (by simp [marks]) h
  · exact hstep [] .opening rfl (by decide) (by simp [marks]) h
  · exact hstep [] .closing rfl (by decide) (by simp [marks]) h
  · exact hstep [] (.comparison .eq) rfl (by decide) (by simp [marks]) h
  · exact hstep ['='] (.comparison .le) rfl (by decide) (by simp [marks]) h
  · exact hstep ['>'] (.comparison .ne) rfl (by decide) (by simp [marks]) h
  · next hle hne =>
    refine hstep [] (.comparison .lt) rfl (by decide) ?_ h
    intro x hx hmark
    obtain ⟨others, rfl⟩ := List.head?_eq_some_iff.1 hx
    obtain rfl | rfl : x = '>' ∨ x = '=' := by simpa [marks] using hmark
    · exact hne others rfl
    · exact hle others rfl
  · exact hstep ['='] (.comparison .ge) rfl (by decide) (by simp [marks]) h
  · next hge =>
    refine hstep [] (.comparison .gt) rfl (by decide) ?_ h
    intro x hx hmark
    obtain ⟨others, rfl⟩ := List.head?_eq_some_iff.1 hx
    obtain rfl : x = '=' := by simpa [marks] using hmark
    exact hge others rfl
  · cases h

/-- What the scanner finds are the tokens of the text. -/
theorem lexes_of_scanAfter (h : scanAfter [] text = .ok tokens) : Lexes text tokens := by
  induction hlength : text.length using Nat.strongRecOn generalizing text tokens with
  | _ length ih =>
  subst hlength
  cases text with
  | nil =>
    cases h
    exact .nil
  | cons c text =>
    by_cases hstarts : startsRun c
    · have hsplit : text.takeWhile isWordChar ++ text.dropWhile isWordChar = text :=
        List.takeWhile_append_dropWhile
      have hword : ∀ x ∈ text.takeWhile isWordChar, isWordChar x := by
        intro x hx
        exact List.mem_takeWhile_imp hx
      rw [scanAfter_run hstarts] at h
      obtain ⟨before, hbefore, h⟩ := bind_eq_ok_iff.1 h
      obtain ⟨after, hafter, h⟩ := bind_eq_ok_iff.1 h
      cases h
      obtain ⟨token, rfl, hrun⟩ := isRun_of_ofRun hstarts hword hbefore
      have hshorter : (text.dropWhile isWordChar).length < (c :: text).length :=
        Nat.lt_succ_of_le (List.length_dropWhile_le ..)
      have hrest := ih _ hshorter hafter rfl
      have hlexes := Lexes.token (spells_of_isRun hrun) ?_ hrest
      · rwa [List.cons_append, hsplit] at hlexes
      -- A run that went on would go on with a word character, which the rest does not start with.
      intro x hx other hother
      have hx' := hother.isWordChar_of_startsRun hstarts x (by simp)
      have hnot := List.head?_dropWhile_not isWordChar text
      grind
    by_cases hblank : Text.isAsciiBlank c
    · rw [scanAfter_blank hblank] at h
      exact .blank hblank (ih _ (by simp) h rfl)
    obtain ⟨more, rest, token, after, rfl, rfl, hspells, hlongest, hafter⟩ :=
      mark_of_scanAfter hstarts hblank h
    have hshorter : rest.length < (c :: (more ++ rest)).length := by
      rw [List.length_cons, List.length_append]
      omega
    exact .token hspells hlongest (ih _ hshorter hafter rfl)

end Soundness

/-- The scanner finds the tokens of every text that has some, and fails on the others. -/
theorem scan_eq_ok_iff {text : String} {tokens : List Token} :
    scan text = .ok tokens ↔ Lexes text.toList tokens :=
  ⟨lexes_of_scanAfter, Lexes.scanAfter⟩

theorem Lexes.unique {text : List Char} {first second : List Token} (hfirst : Lexes text first)
    (hsecond : Lexes text second) : first = second := by
  have h := hfirst.scanAfter.symm.trans hsecond.scanAfter
  cases h
  rfl

/-! ## White space between tokens -/

/-- No spelling has white space in it. -/
theorem Spells.not_isAsciiBlank {text : List Char} {token : Token} (h : Spells text token) :
    ∀ c ∈ text, ¬Text.isAsciiBlank c := by
  intro c hc hblank
  have hclash : ¬startsRun c ∧ ¬isWordChar c := by
    simp only [Text.isAsciiBlank, Bool.or_eq_true, beq_iff_eq] at hblank
    obtain (((rfl | rfl) | rfl) | rfl) | rfl := hblank <;> decide
  obtain ⟨hhead, htail, -⟩ | hmark := h.isRun_or_mark
  · cases text with
    | nil => simp at hc
    | cons first word =>
      obtain rfl | hc := List.mem_cons.1 hc
      · exact hclash.1 (by simpa using hhead)
      · exact hclash.2 (List.all_eq_true.1 htail c hc)
  · have hmarks : marks.all (fun mark => mark.1.all fun c => !Text.isAsciiBlank c) = true := rfl
    have hc := List.all_eq_true.1 (List.all_eq_true.1 hmarks _ hmark) c hc
    simp [hblank] at hc

theorem Lexes.blanks {blanks text : List Char} {tokens : List Token} (h : Lexes text tokens)
    (hblanks : ∀ c ∈ blanks, Text.isAsciiBlank c) : Lexes (blanks ++ text) tokens := by
  induction blanks with
  | nil => exact h
  | cons c blanks ih =>
    exact .blank (hblanks c (by simp)) (ih fun x hx => hblanks x (by simp [hx]))

/-- Spellings with white space between them are cut where the white space is. -/
theorem lexes_spaced {pieces : List (List Char × List Char)} {tokens : List Token}
    (h : List.Forall₂ IsPiece pieces tokens) : Lexes (spaced pieces) tokens := by
  induction h with
  | nil => exact .nil
  | @cons piece token pieces tokens hpiece _ ih =>
    obtain ⟨hspells, hne, hblanks⟩ := hpiece
    have hlexes := Lexes.token hspells ?_ (ih.blanks hblanks)
    · simpa [spaced] using hlexes
    intro c hc other hother
    obtain ⟨first, blanks, hpiece⟩ := List.exists_cons_of_ne_nil hne
    obtain rfl : first = c := by simpa [hpiece] using hc
    exact hother.not_isAsciiBlank first (by simp) (hblanks first (by simp [hpiece]))

end KeyedStore.Token
