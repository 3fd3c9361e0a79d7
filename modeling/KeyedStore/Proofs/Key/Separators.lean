import KeyedStore.Proofs.Connector.CreatedRecords
import Mathlib.Data.List.Infix

/-!
# Separators of identifiers

An identifier is split where the separator first occurs. That is behind its hash, unless the end of
the hash together with the separator makes the separator occur earlier. A hash without the separator
in it may do so too, but only for separators that end in the way in which they begin.
-/
namespace KeyedStore

/-- Whether a separator behind a text occurs earlier, with some of the end of the text. -/
def Overlaps (separator text : List Char) : Prop :=
  ∃ tail, tail ≠ [] ∧ tail <:+ text ∧ separator <+: tail ++ separator

/-- Whether a word ends in the way in which it begins, by less than the whole of it. -/
def HasBorder (word : List Char) : Prop :=
  ∃ border, border ≠ [] ∧ border ≠ word ∧ border <+: word ∧ border <:+ word

instance (separator text : List Char) : Decidable (Overlaps separator text) :=
  decidable_of_iff (∃ tail ∈ text.tails, tail ≠ [] ∧ separator <+: tail ++ separator) <| by
    simp only [List.mem_tails, Overlaps]
    grind

instance (word : List Char) : Decidable (HasBorder word) :=
  decidable_of_iff (∃ border ∈ word.inits, border ≠ [] ∧ border ≠ word ∧ border <:+ word) <| by
    simp only [List.mem_inits, HasBorder]
    grind

section Texts

variable {separator text before after : List Char}

/-- What follows a text that is long enough does not matter to how it begins. -/
theorem prefix_append_iff (h : separator.length ≤ text.length) :
    separator <+: text ++ after ↔ separator <+: text :=
  ⟨fun hbegins => List.prefix_of_prefix_length_le hbegins (List.prefix_append _ _) h,
    fun hbegins => hbegins.trans (List.prefix_append _ _)⟩

/-- A separator first occurs where it was put, unless it overlaps the text before it. -/
theorem firstOccursAt_append_iff :
    FirstOccursAt separator (before ++ separator ++ after) before.length ↔
      ¬Overlaps separator before := by
  have hdrop {k : Nat} (hk : k < before.length) :
      separator <+: (before ++ separator ++ after).drop k ↔
        separator <+: before.drop k ++ separator := by
    rw [List.append_assoc, List.drop_append_of_le_length (Nat.le_of_lt hk), ← List.append_assoc,
      prefix_append_iff (by simp)]
  rw [firstOccursAt_iff]
  constructor
  · rintro h ⟨tail, hne, ⟨front, rfl⟩, hbegins⟩
    have hlt : front.length < (front ++ tail).length := by
      simpa using List.length_pos_iff.2 hne
    refine h front.length hlt ((hdrop hlt).2 ?_)
    rwa [List.drop_left]
  · intro h k hk hbegins
    refine h ⟨before.drop k, ?_, List.drop_suffix k before, (hdrop hk).1 hbegins⟩
    rw [Ne, List.drop_eq_nil_iff]
    omega

/-- The separator first occurs where a text is split. -/
theorem firstOccursAt_of_splitAtFirst (h : splitAtFirst separator text = some (before, after)) :
    before ++ separator ++ after = text ∧ FirstOccursAt separator text before.length := by
  induction text generalizing before with
  | nil =>
    simp only [splitAtFirst] at h
    split at h
    case isTrue hempty =>
      cases h
      exact ⟨by simpa using hempty, fun _ _ _ => Nat.zero_le _⟩
    case isFalse => cases h
  | cons c rest ih =>
    simp only [splitAtFirst] at h
    split at h
    case isTrue hstart =>
      cases h
      obtain ⟨tail, htail⟩ := List.isPrefixOf_iff_prefix.1 hstart
      exact ⟨by simp [← htail], fun _ _ _ => Nat.zero_le _⟩
    case isFalse hstart =>
      obtain ⟨⟨front, _⟩, hsplit, hsome⟩ := Option.map_eq_some_iff.1 h
      cases hsome
      obtain ⟨hjoin, hfirst⟩ := ih hsplit
      refine ⟨by simp [← hjoin], firstOccursAt_iff.2 fun k hk hbegins => ?_⟩
      cases k with
      | zero => exact hstart (List.isPrefixOf_iff_prefix.2 hbegins)
      | succ k => exact firstOccursAt_iff.1 hfirst k (by simpa using hk) hbegins

/-- What was joined is taken apart again exactly if the separator does not overlap what is before
it. -/
theorem splitAtFirst_append_iff :
    splitAtFirst separator (before ++ separator ++ after) = some (before, after) ↔
      ¬Overlaps separator before :=
  ⟨fun h => firstOccursAt_append_iff.1 (firstOccursAt_of_splitAtFirst h).2,
    fun h => splitAtFirst_eq (firstOccursAt_append_iff.2 h)⟩

/-- A word with a border overlaps what it has before the border. -/
theorem HasBorder.exists_overlaps (h : HasBorder separator) :
    ∃ text, ¬separator <:+: text ∧ Overlaps separator text := by
  obtain ⟨border, hborder, hne, ⟨rest, hbegin⟩, front, hend⟩ := h
  have hfront : front ≠ [] := by
    rintro rfl
    exact hne (by simpa using hend)
  refine ⟨front, fun hinside => ?_, front, hfront, List.suffix_rfl, rest, ?_⟩
  · have hle := hinside.length_le
    have hpos := List.length_pos_iff.2 hborder
    simp only [← hend, List.length_append] at hle
    omega
  · -- The border is the end of the first word and the beginning of the second one.
    calc separator ++ rest = front ++ (border ++ rest) := by rw [← hend, List.append_assoc]
      _ = front ++ separator := by rw [hbegin]

/-- A word that overlaps a text without being in it has a border. -/
theorem Overlaps.hasBorder (h : Overlaps separator text) (hinside : ¬separator <:+: text) :
    HasBorder separator := by
  obtain ⟨tail, hne, hsuffix, rest, hrest⟩ := h
  have hshort : tail.length < separator.length := by
    refine Nat.lt_of_not_le fun hle => hinside ?_
    exact ((prefix_append_iff hle).1 ⟨rest, hrest⟩).isInfix.trans hsuffix.isInfix
  obtain ⟨border, hborder⟩ : tail <+: separator :=
    List.prefix_of_prefix_length_le ⟨separator, rfl⟩ ⟨rest, hrest⟩ (Nat.le_of_lt hshort)
  have hlength : border.length = separator.length - tail.length := by simp [← hborder]
  have hpos := List.length_pos_iff.2 hne
  refine ⟨border, ?_, ?_, ⟨rest, ?_⟩, tail, hborder⟩
  · rintro rfl
    simp only [List.length_nil] at hlength
    omega
  · rintro rfl
    omega
  · rw [← hborder, List.append_assoc] at hrest
    simpa [hborder] using hrest

end Texts

/-- The values of a range key: texts, or the integers of the signed 64-bit range. -/
inductive PropertyType.IsRange : PropertyType → Json → Prop
  | string (text : String) : IsRange .string (.str text)
  | number {n : Number} (h : n.int64?.isSome) : IsRange .number (.num n)

namespace PropertyType

variable {type : PropertyType} {range : Json}

theorem IsRange.admits (h : type.IsRange range) : type.admits range ∧ range.isNull = false := by
  cases h <;> exact ⟨rfl, rfl⟩

theorem IsRange.isSome_int64? (h : type.IsRange range) {n : Number} (hn : range = .num n) :
    n.int64?.isSome := by
  cases h with
  | string => cases hn
  | number h =>
    cases hn
    exact h

/-- No word with a border is in every range value, for such words have more than one letter. -/
theorem exists_isRange (htype : type = .string ∨ type = .number) {word : List Char}
    (h : HasBorder word) : ∃ range, type.IsRange range ∧ ¬word <:+: range.keyText.toList := by
  have hlength : 1 < word.length := by
    obtain ⟨border, hne, hproper, hbegin, -⟩ := h
    have hpos := List.length_pos_iff.2 hne
    have hle := hbegin.length_le
    have hlt : border.length ≠ word.length := fun heq => hproper (hbegin.eq_of_length heq)
    omega
  have hshort {text : List Char} (htext : text.length ≤ 1) : ¬word <:+: text := fun hinside => by
    have hle := hinside.length_le
    omega
  obtain rfl | rfl := htype
  · exact ⟨_, .string "", hshort (by decide)⟩
  · exact ⟨_, .number (n := .int 0 (by decide)) rfl, hshort (by decide +kernel)⟩

end PropertyType

namespace Schema

variable {schema : Schema} {rangeKey : String} {type : PropertyType}

/-- The identifier of a hash and a range names them exactly if the separator does not overlap the
hash. -/
theorem decodeId_encodeId_iff (hhash : schema.type? schema.hashKey = some .string)
    (hkey : schema.rangeKey = some rangeKey) (htype : schema.type? rangeKey = some type)
    (hash : String) {range : Json} (hrange : type.IsRange range) :
    schema.decodeId (schema.encodeId (.str hash) range) = .ok (.str hash, range) ↔
      ¬Overlaps schema.separator.toList hash.toList := by
  have hjoined : (schema.encodeId (.str hash) range).toList =
      hash.toList ++ schema.separator.toList ++ range.keyText.toList := by
    simp [encodeId, Json.keyText]
  have hcoerceHash (text : String) :
      schema.coerce schema.hashKey (.str text) = .ok (.str text) := by
    simp [coerce, hhash, coerceKey]
  have hcoerceRange : schema.coerce rangeKey (.str range.keyText) = .ok range := by
    obtain ⟨hadmits, hnull⟩ := hrange.admits
    have hscalar : type.scalar?.isSome := by cases hrange <;> rfl
    refine (coerce_keyText htype hscalar (fun other hother => ?_) hnull).1 fun n hn =>
      hrange.isSome_int64? hn
    cases htype.symm.trans hother
    exact hadmits
  have hiff := @splitAtFirst_append_iff schema.separator.toList hash.toList range.keyText.toList
  rw [← hiff, ← hjoined]
  unfold decodeId
  rw [hkey]
  dsimp only
  constructor
  · intro hdecode
    split at hdecode
    case h_1 => cases hdecode
    case h_2 before after hsplit =>
      -- The hash is the text before the separator, and so the rest is the text of the range.
      rw [hcoerceHash, ok_bind] at hdecode
      obtain ⟨_, -, hpair⟩ := bind_eq_ok_iff.1 hdecode
      cases hpair
      have hsame := (firstOccursAt_of_splitAtFirst hsplit).1
      rw [hjoined] at hsame
      obtain rfl : after = range.keyText.toList := by simpa using hsame
      simpa using hsplit
  · intro hsplit
    rw [hsplit]
    simp only [String.ofList_toList, hcoerceHash, hcoerceRange]
    rfl

/-- A hash and a range are named by their identifier exactly if the separator does not overlap the
hash. All hashes and ranges that do not have the separator in their texts are named by their
identifiers exactly if the separator has no border. -/
theorem decodeId_encodeId (hhash : schema.type? schema.hashKey = some .string)
    (hkey : schema.rangeKey = some rangeKey) (htype : schema.type? rangeKey = some type)
    (hrangeType : type = .string ∨ type = .number) :
    (∀ (hash : String) range, type.IsRange range →
      (schema.decodeId (schema.encodeId (.str hash) range) = .ok (.str hash, range) ↔
        ¬Overlaps schema.separator.toList hash.toList)) ∧
    ((∀ (hash : String) range, type.IsRange range → ¬schema.separator.toList <:+: hash.toList →
        ¬schema.separator.toList <:+: range.keyText.toList →
        schema.decodeId (schema.encodeId (.str hash) range) = .ok (.str hash, range)) ↔
      ¬HasBorder schema.separator.toList) := by
  have hiff (hash : String) (range : Json) (hrange : type.IsRange range) :=
    decodeId_encodeId_iff hhash hkey htype hash hrange
  refine ⟨hiff, fun hall hborder => ?_, fun hborder hash range hrange hinside _ => ?_⟩
  · obtain ⟨text, hinside, hoverlaps⟩ := hborder.exists_overlaps
    obtain ⟨range, hrange, houtside⟩ := PropertyType.exists_isRange hrangeType hborder
    refine (hiff (String.ofList text) range hrange).1 ?_ (by simpa using hoverlaps)
    exact hall _ _ hrange (by simpa using hinside) houtside
  · exact (hiff hash range hrange).2 fun hoverlaps => hborder (hoverlaps.hasBorder hinside)

end Schema

namespace Connector

/-- The separator that models have by default has a border. An order is named by its identifier
nevertheless if its customer does not end in what the separator has before the border. -/
theorem decodeId_encodeId_orders :
    orders.type? orders.hashKey = some .string ∧ orders.rangeKey = some "orderId" ∧
    orders.type? "orderId" = some .number ∧
    PropertyType.number.IsRange (.num (.int 5 (by decide))) ∧
    ¬Overlaps orders.separator.toList "c1--".toList ∧
    orders.decodeId (orders.encodeId (.str "c1--") (.num (.int 5 (by decide)))) =
      .ok (.str "c1--", .num (.int 5 (by decide))) ∧
    ¬∀ (hash : String) range, PropertyType.number.IsRange range →
      ¬orders.separator.toList <:+: hash.toList →
      ¬orders.separator.toList <:+: range.keyText.toList →
      orders.decodeId (orders.encodeId (.str hash) range) = .ok (.str hash, range) := by
  have hrange : PropertyType.number.IsRange (.num (.int 5 (by decide))) := .number rfl
  have hoverlaps : ¬Overlaps orders.separator.toList "c1--".toList := by decide +kernel
  obtain ⟨hnamed, hall⟩ :=
    @Schema.decodeId_encodeId orders "orderId" .number rfl rfl rfl (.inr rfl)
  refine ⟨rfl, rfl, rfl, hrange, hoverlaps, (hnamed _ _ hrange).2 hoverlaps, fun h => ?_⟩
  exact hall.1 h (by decide +kernel)

/-- An order of a customer that ends in a part of the separator is not named by its identifier. -/
theorem decodeId_ne_orders :
    (∃ definition, ModelDefinition.ofJson "Order" orderProperties .null = .ok definition ∧
      Registry.define [] definition = .ok (orders, [("Order", orders)])) ∧
    orders.type? orders.hashKey = some .string ∧ orders.rangeKey = some "orderId" ∧
    orders.type? "orderId" = some .number ∧
    PropertyType.number.IsRange (.num (.int 5 (by decide))) ∧
    ¬orders.separator.toList <:+: "c1--x".toList ∧
    ¬orders.separator.toList <:+: (Json.num (.int 5 (by decide))).keyText.toList ∧
    orders.encodeId (.str "c1--x") (.num (.int 5 (by decide))) = "c1--x--x--5" ∧
    orders.decodeId "c1--x--x--5" =
      .error (.invalidKey "orderId" "`x--5` is not an integer") :=
  ⟨exists_orders, rfl, rfl, rfl, .number rfl, by decide +kernel, by decide +kernel,
    by decide +kernel, rfl⟩

end Connector

end KeyedStore
