import KeyedStore.Text.Base64

/-!
# Base64 text

Writing and reading base64 are inverse to each other: the text of some bytes is read as these bytes,
and a text that is read as some bytes is the text of them. So each list of bytes has one text.
-/
namespace KeyedStore.Text.Base64

/-- A letter stands for the six bits that it is written for. -/
theorem value?_letter (n : Nat) : value? (letter n) = some (n % 64) := by
  have hletter : ∀ m < 64, value? (alphabet.getD m 'A') = some m := by decide
  exact hletter (n % 64) (Nat.mod_lt n (by decide))

/-- The padding is no letter. -/
theorem letter_ne_padding (n : Nat) : letter n ≠ '=' := by
  intro h
  have hvalue := value?_letter n
  rw [h] at hvalue
  cases hvalue

theorem value?_eq_some {c : Char} {n : Nat} (h : value? c = some n) : n < 64 ∧ letter n = c := by
  obtain ⟨hlt, hfound, -⟩ := List.findIdx?_eq_some_iff_getElem.1 h
  have hn : n < 64 := hlt
  refine ⟨hn, ?_⟩
  rw [letter, Nat.mod_eq_of_lt hn, List.getD_eq_getElem?_getD, List.getElem?_eq_getElem hlt,
    Option.getD_some]
  exact eq_of_beq hfound

theorem letter_of_mod_eq {n m : Nat} (h : n % 64 = m % 64) : letter n = letter m := by
  rw [letter, letter, h]

theorem toNat_ofNat (n : Nat) : (UInt8.ofNat n).toNat = n % 256 := UInt8.toNat_ofNat'

theorem ofNat_toNat_mod {n : Nat} {a : UInt8} (h : n % 256 = a.toNat) : UInt8.ofNat n = a := by
  apply UInt8.toNat_inj.1
  rw [toNat_ofNat, h]

/-- A group that ends with a letter is read as three bytes. -/
theorem decodeChars_cons {a b c d : Char} {rest : List Char} {x y z w : Nat} {bytes : List UInt8}
    (ha : value? a = some x) (hb : value? b = some y) (hc : value? c = some z)
    (hd : value? d = some w) (hrest : decodeChars rest = some bytes) :
    decodeChars (a :: b :: c :: d :: rest) =
      some (UInt8.ofNat ((x * 262144 + y * 4096 + z * 64 + w) / 65536) ::
        UInt8.ofNat ((x * 262144 + y * 4096 + z * 64 + w) / 256) ::
        UInt8.ofNat (x * 262144 + y * 4096 + z * 64 + w) :: bytes) := by
  have hpadding : d ≠ '=' := by
    rintro rfl
    cases hd
  rw [decodeChars]
  · simp [ha, hb, hc, hd, hrest]
  all_goals simp_all

/-- The text of some bytes is read as these bytes. -/
theorem decodeChars_encodeChars (bytes : List UInt8) :
    decodeChars (encodeChars bytes) = some bytes := by
  fun_induction encodeChars bytes with
  | case1 a b c rest n ih =>
    have ha := a.toNat_lt
    have hb := b.toNat_lt
    have hc := c.toNat_lt
    have hn : n / 262144 % 64 * 262144 + n / 4096 % 64 * 4096 + n / 64 % 64 * 64 + n % 64 = n := by
      omega
    rw [decodeChars_cons (value?_letter _) (value?_letter _) (value?_letter _) (value?_letter _) ih,
      hn, ofNat_toNat_mod (show n / 65536 % 256 = a.toNat by omega),
      ofNat_toNat_mod (show n / 256 % 256 = b.toNat by omega),
      ofNat_toNat_mod (show n % 256 = c.toNat by omega)]
  | case2 a b n =>
    have ha := a.toNat_lt
    have hb := b.toNat_lt
    have hn : n / 4096 % 64 * 4096 + n / 64 % 64 * 64 + n % 64 = n := by omega
    rw [decodeChars]
    · simp only [value?_letter, Option.bind_eq_bind, Option.bind_some, hn]
      rw [if_pos (by omega), ofNat_toNat_mod (show n / 1024 % 256 = a.toNat by omega),
        ofNat_toNat_mod (show n / 4 % 256 = b.toNat by omega)]
    · exact letter_ne_padding n
  | case3 a n =>
    have ha := a.toNat_lt
    have hn : n / 64 % 64 * 64 + n % 64 = n := by omega
    rw [decodeChars]
    simp only [value?_letter, Option.bind_eq_bind, Option.bind_some, hn]
    rw [if_pos (by omega), ofNat_toNat_mod (show n / 16 % 256 = a.toNat by omega)]
  | case4 => rfl

/-- A text that is read as some bytes is the text of these bytes. -/
theorem eq_encodeChars_of_decodeChars {text : List Char} {bytes : List UInt8}
    (h : decodeChars text = some bytes) : text = encodeChars bytes := by
  fun_induction decodeChars text generalizing bytes with
  | case1 =>
    cases h
    rfl
  | case2 a b =>
    simp only [Option.bind_eq_bind, Option.bind_eq_some_iff] at h
    obtain ⟨x, ha, y, hb, h⟩ := h
    obtain ⟨hx, rfl⟩ := value?_eq_some ha
    obtain ⟨hy, rfl⟩ := value?_eq_some hb
    split at h
    case isFalse => cases h
    case isTrue hzero =>
      cases h
      simp only [encodeChars, toNat_ofNat]
      rw [letter_of_mod_eq (show x % 64 = (x * 64 + y) / 16 % 256 * 16 / 64 % 64 by omega),
        letter_of_mod_eq (show y % 64 = (x * 64 + y) / 16 % 256 * 16 % 64 by omega)]
  | case3 a b c hc =>
    simp only [Option.bind_eq_bind, Option.bind_eq_some_iff] at h
    obtain ⟨x, ha, y, hb, z, hc, h⟩ := h
    obtain ⟨hx, rfl⟩ := value?_eq_some ha
    obtain ⟨hy, rfl⟩ := value?_eq_some hb
    obtain ⟨hz, rfl⟩ := value?_eq_some hc
    split at h
    case isFalse => cases h
    case isTrue hzero =>
      cases h
      simp only [encodeChars, toNat_ofNat]
      have hn : (x * 4096 + y * 64 + z) / 1024 % 256 * 1024 +
          (x * 4096 + y * 64 + z) / 4 % 256 * 4 = x * 4096 + y * 64 + z := by omega
      rw [hn, letter_of_mod_eq (show x % 64 = (x * 4096 + y * 64 + z) / 4096 % 64 by omega),
        letter_of_mod_eq (show y % 64 = (x * 4096 + y * 64 + z) / 64 % 64 by omega),
        letter_of_mod_eq (show z % 64 = (x * 4096 + y * 64 + z) % 64 by omega)]
  | case4 a b c d rest _ _ ih =>
    simp only [Option.bind_eq_bind, Option.bind_eq_some_iff] at h
    obtain ⟨x, ha, y, hb, z, hc, w, hd, others, hothers, h⟩ := h
    obtain ⟨hx, rfl⟩ := value?_eq_some ha
    obtain ⟨hy, rfl⟩ := value?_eq_some hb
    obtain ⟨hz, rfl⟩ := value?_eq_some hc
    obtain ⟨hw, rfl⟩ := value?_eq_some hd
    cases h
    simp only [encodeChars, toNat_ofNat, ← ih hothers]
    have hn (n : Nat) (hn : n < 16777216) :
        n / 65536 % 256 * 65536 + n / 256 % 256 * 256 + n % 256 = n := by omega
    rw [hn _ (by omega)]
    rw [letter_of_mod_eq (show x % 64 = (x * 262144 + y * 4096 + z * 64 + w) / 262144 % 64 by omega),
      letter_of_mod_eq (show y % 64 = (x * 262144 + y * 4096 + z * 64 + w) / 4096 % 64 by omega),
      letter_of_mod_eq (show z % 64 = (x * 262144 + y * 4096 + z * 64 + w) / 64 % 64 by omega),
      letter_of_mod_eq (show w % 64 = (x * 262144 + y * 4096 + z * 64 + w) % 64 by omega)]
  | case5 => cases h

theorem decode?_encode (bytes : List UInt8) : decode? (encode bytes) = some bytes := by
  rw [decode?, encode, String.toList_ofList, decodeChars_encodeChars]

/-- Decoding accepts exactly what encoding writes. -/
theorem decode?_eq_some_iff {text : String} {bytes : List UInt8} :
    decode? text = some bytes ↔ text = encode bytes := by
  constructor
  · intro h
    rw [encode, ← eq_encodeChars_of_decodeChars h, String.ofList_toList]
  · rintro rfl
    exact decode?_encode bytes

end KeyedStore.Text.Base64
