import KeyedStore.Proofs.Except
import KeyedStore.Proofs.Expression.Parsing

/-!
# Parsing printed updates

A printed update is parsed as itself: its text is read as the tokens of its clauses, and these as
assignments and removals again.
-/
namespace KeyedStore

/-- The tokens of an assignment. -/
def Assignment.tokens (assignment : Assignment) : List Token :=
  [(Operand.path assignment.path).token, .comparison .eq, assignment.value.token]

/-- Whether both sides of an assignment can be written. -/
def Assignment.IsLexical (assignment : Assignment) : Prop :=
  (Operand.path assignment.path).IsLexical ∧ assignment.value.IsLexical

theorem Assignment.IsLexical.reads {assignment : Assignment} (h : assignment.IsLexical) :
    Token.Reads (assignment.path ++ " = " ++ assignment.value.text).toList assignment.tokens := by
  have hpath : Token.Reads assignment.path.toList [(Operand.path assignment.path).token] :=
    h.1.reads
  simpa [tokens, Comparison.symbol] using hpath.append_blank (h.2.reads.symbol .eq)

namespace Update

variable {update : Update}

/-- The tokens of a clause, none where it has no parts. -/
def clauseTokens (keyword : Keyword) : List (List Token) → List Token
  | [] => []
  | first :: others => .keyword keyword :: (first ++ others.flatMap fun part => .comma :: part)

/-- The tokens of an update. -/
def tokens (update : Update) : List Token :=
  clauseTokens .set (update.assignments.map Assignment.tokens) ++
    clauseTokens .remove (update.removals.map fun path => [(Operand.path path).token])

/-- Whether all assignments and removals of an update can be written. -/
structure IsLexical (update : Update) : Prop where
  assignments : ∀ assignment ∈ update.assignments, assignment.IsLexical
  removals : ∀ path ∈ update.removals, (Operand.path path).IsLexical

/-- A clause is left out, or it is read as its keyword and its parts. -/
theorem reads_clause {α : Type} (keyword : Keyword) {text : α → String} {tokens : α → List Token}
    {parts : List α} (h : ∀ a ∈ parts, Token.Reads (text a).toList (tokens a)) :
    (clause keyword.name (parts.map text) = [] ∧ clauseTokens keyword (parts.map tokens) = []) ∨
      ∃ clauseText, clause keyword.name (parts.map text) = [clauseText] ∧
        Token.Reads clauseText.toList (clauseTokens keyword (parts.map tokens)) := by
  cases parts with
  | nil => exact .inl ⟨rfl, rfl⟩
  | cons first others =>
    refine .inr ⟨_, rfl, ?_⟩
    have hparts := Expr.reads_commaSeparated h
    simpa [clauseTokens, List.flatMap_map] using
      (Token.isRun_keyword keyword).reads.append_blank hparts

/-- A printed update is read as its tokens. -/
theorem scan_print (h : update.IsLexical) : Token.scan update.print = .ok update.tokens := by
  have hset := reads_clause .set fun a hmem => (h.assignments a hmem).reads
  have hremove := reads_clause .remove
    (show ∀ path ∈ update.removals, Token.Reads (id path).toList [(Operand.path path).token] from
      fun path hmem => (h.removals path hmem).reads)
  rw [List.map_id] at hremove
  have hprint : update.print = " ".intercalate
      (clause Keyword.set.name (update.assignments.map fun a => a.path ++ " = " ++ a.value.text) ++
        clause Keyword.remove.name update.removals) := rfl
  unfold tokens
  obtain ⟨hset, hsetTokens⟩ | ⟨set, hset, hreadSet⟩ := hset <;>
    obtain ⟨hremove, hremoveTokens⟩ | ⟨remove, hremove, hreadRemove⟩ := hremove <;>
    rw [hprint, hset, hremove]
  · rw [hsetTokens, hremoveTokens]
    rfl
  · simpa [hsetTokens] using hreadRemove.scan
  · simpa [hremoveTokens] using hreadSet.scan
  · refine Token.Reads.scan ?_
    simpa [String.intercalate_cons_cons] using hreadSet.append_blank hreadRemove

end Update

namespace Parser

theorem path_token (path : String) (rest : List Token) :
    Parser.path ((Operand.path path).token :: rest) = .ok (path, rest) := by
  simp [Parser.path, operand_token, bind, Except.bind]

/-- After an assignment, a comma decides whether there is another one. -/
theorem assignments_tokens_append (fuel : Nat) (first : Assignment) (rest : List Token) :
    assignments (fuel + 1) (first.tokens ++ rest) = match rest with
      | .comma :: rest => do
        let (others, rest) ← assignments fuel rest
        .ok (first :: others, rest)
      | rest => .ok ([first], rest) := by
  cases rest with
  | nil => simp [Assignment.tokens, assignments, path_token, expect, operand_token, ok_bind]
  | cons token rest =>
    cases token <;>
      simp [Assignment.tokens, assignments, path_token, expect, operand_token, ok_bind]

/-- Assignments are read to the end of their clause. -/
theorem assignments_tokens (first : Assignment) {others : List Assignment} {fuel : Nat}
    (hfuel : others.length < fuel) {rest : List Token} (hrest : rest.head? ≠ some .comma) :
    assignments fuel (first.tokens ++ ((others.flatMap fun a => .comma :: a.tokens) ++ rest)) =
      .ok (first :: others, rest) := by
  induction others generalizing first fuel with
  | nil =>
    obtain ⟨fuel, rfl⟩ := Nat.exists_eq_add_one.2 (show 0 < fuel by omega)
    rw [List.flatMap_nil, List.nil_append, assignments_tokens_append]
    split
    case h_1 => simp at hrest
    case h_2 => rfl
  | cons second others ih =>
    obtain ⟨fuel, rfl⟩ := Nat.exists_eq_add_one.2 (show 0 < fuel by omega)
    have htail := ih second (by simpa using hfuel)
    simp only [assignments_tokens_append, List.flatMap_cons, List.cons_append, List.append_assoc,
      htail, ok_bind]

/-- After a removal, a comma decides whether there is another one. -/
theorem paths_token_cons (fuel : Nat) (first : String) (rest : List Token) :
    paths (fuel + 1) ((Operand.path first).token :: rest) = match rest with
      | .comma :: rest => do
        let (others, rest) ← paths fuel rest
        .ok (first :: others, rest)
      | rest => .ok ([first], rest) := by
  cases rest with
  | nil => simp [paths, path_token, ok_bind]
  | cons token rest => cases token <;> simp [paths, path_token, ok_bind]

/-- Removals are read to the end of their clause. -/
theorem paths_tokens (first : String) {others : List String} {fuel : Nat}
    (hfuel : others.length < fuel) {rest : List Token} (hrest : rest.head? ≠ some .comma) :
    paths fuel ((Operand.path first).token ::
      ((others.flatMap fun path => [.comma, (Operand.path path).token]) ++ rest)) =
      .ok (first :: others, rest) := by
  induction others generalizing first fuel with
  | nil =>
    obtain ⟨fuel, rfl⟩ := Nat.exists_eq_add_one.2 (show 0 < fuel by omega)
    rw [List.flatMap_nil, List.nil_append, paths_token_cons]
    split
    case h_1 => simp at hrest
    case h_2 => rfl
  | cons second others ih =>
    obtain ⟨fuel, rfl⟩ := Nat.exists_eq_add_one.2 (show 0 < fuel by omega)
    have htail := ih second (by simpa using hfuel)
    simp only [paths_token_cons, List.flatMap_cons, List.cons_append, List.nil_append, htail,
      ok_bind]

section Clauses

variable {rest : List Token} {fuel : Nat} {after : Update}

/-- Assignments are read before the clauses after them. -/
theorem clauses_set {list : List Assignment} (hne : list ≠ []) (hrest : rest.head? ≠ some .comma)
    (hafter : clauses fuel rest = .ok after) :
    clauses (fuel + 1) (Update.clauseTokens .set (list.map Assignment.tokens) ++ rest) =
      .ok { after with assignments := list ++ after.assignments } := by
  obtain ⟨first, others, rfl⟩ := List.exists_cons_of_ne_nil hne
  have hlength : others.length < (first.tokens ++
      ((others.flatMap fun a => .comma :: a.tokens) ++ rest)).length + 1 := by
    simp [List.length_flatMap, Assignment.tokens, List.map_const']
    omega
  have hread := assignments_tokens first hlength hrest
  simp only [List.map_cons, Update.clauseTokens, List.flatMap_map, List.cons_append,
    List.append_assoc, clauses, hread, ok_bind, hafter]

/-- Removals are read before the clauses after them. -/
theorem clauses_remove {list : List String} (hne : list ≠ []) (hrest : rest.head? ≠ some .comma)
    (hafter : clauses fuel rest = .ok after) :
    clauses (fuel + 1)
        (Update.clauseTokens .remove (list.map fun path => [(Operand.path path).token]) ++ rest) =
      .ok { after with removals := list ++ after.removals } := by
  obtain ⟨first, others, rfl⟩ := List.exists_cons_of_ne_nil hne
  have hlength : others.length < ((Operand.path first).token ::
      ((others.flatMap fun path => [.comma, (Operand.path path).token]) ++ rest)).length + 1 := by
    simp [List.length_flatMap, List.map_const']
    omega
  have hread := paths_tokens first hlength hrest
  simp only [List.map_cons, Update.clauseTokens, List.flatMap_map, List.cons_append,
    List.nil_append, clauses, hread, ok_bind, hafter]

end Clauses

end Parser

namespace Update

open KeyedStore.Parser

/-- The tokens of an update are read as its clauses. -/
theorem clauses_tokens (update : Update) (fuel : Nat) :
    clauses (fuel + 3) update.tokens = .ok update := by
  obtain ⟨assignments, removals⟩ := update
  have hremove : ∀ fuel, clauses (fuel + 2) (clauseTokens .remove
      (removals.map fun path => [(Operand.path path).token])) = .ok { removals } := by
    intro fuel
    by_cases hne : removals = []
    · subst hne
      rfl
    · simpa using clauses_remove hne (show ([] : List Token).head? ≠ some .comma by simp)
        (show clauses (fuel + 1) [] = .ok {} from rfl)
  unfold tokens
  by_cases hne : assignments = []
  · subst hne
    exact hremove (fuel + 1)
  · have hrest : (clauseTokens .remove
        (removals.map fun path => [(Operand.path path).token])).head? ≠ some .comma := by
      cases removals <;> simp [clauseTokens]
    simpa using clauses_set hne hrest (hremove fuel)

/-- A printed update that changes something is parsed as itself. -/
theorem parse_print (h : update.IsLexical) (hne : update.paths ≠ []) :
    parse update.print = .ok update := by
  have hlength : 2 ≤ update.tokens.length := by
    obtain ⟨assignments, removals⟩ := update
    cases assignments <;> cases removals <;>
      simp_all [paths, tokens, clauseTokens, Assignment.tokens]
  obtain ⟨fuel, hfuel⟩ := Nat.exists_eq_add_of_le hlength
  have hread := update.clauses_tokens fuel
  have hempty : update.paths.isEmpty = false := by simpa using hne
  rw [show fuel + 3 = update.tokens.length + 1 by omega] at hread
  simp only [parse, scan_print h, ok_bind, hread, hempty, Bool.false_eq_true, if_false]

end Update

end KeyedStore
