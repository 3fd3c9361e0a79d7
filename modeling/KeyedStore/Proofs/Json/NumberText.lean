import KeyedStore.Proofs.Numeric.DecimalText

/-!
# Texts of numbers

What the text of a number is read as: the texts of integers as integers, and no others.
-/
namespace KeyedStore.Number

/-- The text of a floating point value is a numeral with a point or an exponent. -/
theorem exists_isNumeral_text {x : Binary64} (h : x.isFinite) : ∃ body digits exponent,
    text (.real x h) = Decimal.signed x.shortest.negative body ∧
      Decimal.IsNumeral body digits exponent := by
  obtain ⟨body, digits, exponent, hrender, hnumeral, -⟩ :=
    Binary64.exists_isNumeral_render layout x.shortest
  exact ⟨body, digits, exponent, hrender, hnumeral⟩

/-- The text of a number is read as the integer of the signed 64-bit range that the number is. -/
theorem readInt64?_text (n : Number) : readInt64? n.text = n.int64? := by
  cases n with
  | int n inRange =>
    rw [text, readInt64?_integerText, int64?]
    simp only [inRange.1, true_and]
  | real x h =>
    obtain ⟨body, digits, exponent, htext, hnumeral⟩ := exists_isNumeral_text h
    rw [htext, readInt64?, readInteger?, splitSign_signed hnumeral.head]
    simp [hnumeral.isReal, int64?]

/-- The text of a number is read as the nearest floating point value. -/
theorem read?_text (n : Number) : Binary64.read? n.text = some n.toBinary64 := by
  cases n with
  | int n inRange =>
    refine Binary64.read?_integerText ?_
    have hlt : n.natAbs < 2 ^ 64 := by
      have hlow : -(2 ^ 63 : Int) ≤ n := inRange.1
      have hhigh : n < (2 ^ 64 : Int) := inRange.2
      omega
    exact hlt.trans (by decide)
  | real x h => exact Binary64.read?_render_shortest h _

/-- The text of a floating point value is no natural number. -/
theorem readNatBelow?_text_real {x : Binary64} (h : x.isFinite) (bound : Nat) :
    readNatBelow? bound (text (.real x h)) = none := by
  obtain ⟨body, digits, exponent, htext, hnumeral⟩ := exists_isNumeral_text h
  rw [htext]
  unfold readNatBelow? Decimal.signed
  cases x.shortest.negative with
  | true => rfl
  | false =>
    simp only [Bool.false_eq_true, if_false]
    split
    case h_1 rest => exact absurd (hnumeral.head '+' rfl) (by decide)
    case h_2 => simp [hnumeral.isReal]

/-- An integer is read back from its text as a signed or as an unsigned 64-bit word. -/
theorem readInteger_text_int {n : Int} (h : -Nat.pow 2 63 ≤ n ∧ n < Nat.pow 2 64) :
    (readInt64? (integerText n)).or ((readNatBelow? (Nat.pow 2 64) (integerText n)).map (·)) =
      some n := by
  rw [readInt64?_integerText]
  split
  case isTrue => rfl
  case isFalse hlarge =>
    have hpos : 0 ≤ n := by
      have hle : (Nat.pow 2 63 : Int) ≤ n := Int.not_lt.1 fun hlt => hlarge ⟨h.1, hlt⟩
      omega
    have hlt : n < (Nat.pow 2 64 : Nat) := h.2
    rw [readNatBelow?_integerText hpos hlt]
    simp [hpos]

/-- The characters of the texts of numbers. -/
theorem isDigit_or_mem_of_mem_text {n : Number} {c : Char} (h : c ∈ n.text) :
    c.isDigit ∨ c ∈ ['.', 'e', '+', '-'] := by
  have hsigned {negative : Bool} {body : List Char} (h : c ∈ Decimal.signed negative body)
      (hbody : c ∈ body → c.isDigit ∨ c ∈ ['.', 'e', '+', '-']) :
      c.isDigit ∨ c ∈ ['.', 'e', '+', '-'] := by
    unfold Decimal.signed at h
    split at h
    · rcases List.mem_cons.1 h with rfl | h
      · exact .inr (by decide)
      · exact hbody h
    · exact hbody h
  cases n with
  | int n inRange => exact hsigned h fun hc => .inl (isDigit_of_mem_naturalDigits hc)
  | real x hx =>
    obtain ⟨body, digits, exponent, htext, hnumeral⟩ := exists_isNumeral_text hx
    exact hsigned (htext ▸ h) (hnumeral.chars c)

/-- No dash comes after two digits. -/
theorem dash_not_mem_text {n : Number} {first second : Char} {rest : List Char}
    (h : n.text = first :: second :: rest) (hfirst : first.isDigit) (hsecond : second.isDigit) :
    '-' ∉ rest := by
  have hbody {negative : Bool} {body : List Char}
      (h : Decimal.signed negative body = first :: second :: rest) :
      body = first :: second :: rest := by
    cases negative with
    | false => exact h
    | true =>
      obtain rfl : '-' = first := (List.cons.inj h).1
      exact absurd hfirst (by decide)
  intro hdash
  cases n with
  | int n inRange =>
    have hmem : '-' ∈ naturalDigits n.natAbs := by simp [hbody h, hdash]
    exact absurd (isDigit_of_mem_naturalDigits hmem) (by decide)
  | real x hx =>
    obtain ⟨body, digits, exponent, htext, hnumeral⟩ := exists_isNumeral_text hx
    have hsplit := hbody (htext.symm.trans h)
    have hno := hnumeral.dash (by simp [hsplit, hdash]) first second rest hsplit
    simp [hno] at hsecond

end KeyedStore.Number
