import KeyedStore.Plan.Placeholders
import KeyedStore.Proofs.Expression.Scanning
import KeyedStore.Proofs.OrderedMap

/-!
# Allocation of placeholders

There is always a free placeholder, since more are tried than are taken. So a name placeholder
stands for its attribute, a value placeholder for its value alone, and nothing that was given out
changes.
-/
namespace KeyedStore

theorem Token.isWordChar_toUpper {c : Char} (h : isWordChar c) : isWordChar c.toUpper := by
  by_cases hlower : 'a'.val ≤ c.val ∧ c.val ≤ 'z'.val
  · have hlow : 97 ≤ c.val.toNat := hlower.1
    have hhigh : c.val.toNat ≤ 122 := hlower.2
    have hval : c.toUpper.val = c.val + ('A'.val - 'a'.val) := by
      delta Char.toUpper
      rw [dif_pos hlower]
    have hnat : c.toUpper.val.toNat = c.val.toNat - 32 := by
      rw [hval, UInt32.toNat_add, show ('A'.val - 'a'.val).toNat = 4294967264 from rfl]
      omega
    have hfirst : 65 ≤ c.toUpper.val.toNat := by omega
    have hlast : c.toUpper.val.toNat ≤ 90 := by omega
    have hupper : c.toUpper.isUpper := decide_eq_true ⟨hfirst, hlast⟩
    show (((c.toUpper.isUpper || _) || _) || _) = true
    simp [hupper]
  · delta Char.toUpper
    rwa [dif_neg hlower]

/-- Whether a text is a mark and a word after it. -/
def IsMarked (mark : Char) (text : String) : Prop :=
  ∃ word, text.toList = mark :: word ∧ word ≠ [] ∧ ∀ c ∈ word, Token.isWordChar c

theorem IsMarked.ofList {mark : Char} {word : List Char} (hne : word ≠ [])
    (hword : ∀ c ∈ word, Token.isWordChar c) : IsMarked mark (String.ofList (mark :: word)) :=
  ⟨word, by simp, hne, hword⟩

/-- A placeholder for a name is written as one token. -/
theorem IsMarked.isLexical_path {text : String} (h : IsMarked '#' text) :
    (Operand.path text).IsLexical := by
  obtain ⟨word, htext, hne, hword⟩ := h
  obtain ⟨c, others, rfl⟩ := List.exists_cons_of_ne_nil hne
  have hofList : String.ofList ('#' :: c :: others) = text := by rw [← htext, String.ofList_toList]
  refine ⟨?_, ?_, ?_⟩
  · simp [Operand.text, htext, Token.startsRun]
  · simpa [Operand.text, htext] using hword
  · simp [Operand.text, Operand.token, htext, Token.ofRun, hofList]

/-- A placeholder for a value is written as one token. -/
theorem IsMarked.isLexical_value {text : String} (h : IsMarked ':' text) :
    (Operand.value text).IsLexical := by
  obtain ⟨word, htext, hne, hword⟩ := h
  obtain ⟨c, others, rfl⟩ := List.exists_cons_of_ne_nil hne
  have hofList : String.ofList (':' :: c :: others) = text := by rw [← htext, String.ofList_toList]
  refine ⟨?_, ?_, ?_⟩
  · simp [Operand.text, htext, Token.startsRun]
  · simpa [Operand.text, htext] using hword
  · simp [Operand.text, Operand.token, htext, Token.ofRun, hofList]

namespace Placeholders

section Candidates

variable {α : Type} {map : OrderedMap String α}

/-- The numbered placeholders of a stem. -/
def numbered (mark : Char) (stem : List Char) (n : Nat) : String :=
  String.ofList (mark :: (stem ++ Nat.toDigits 10 (n + 1)))

theorem numbered_inj {mark : Char} {stem : List Char} {m n : Nat}
    (h : numbered mark stem m = numbered mark stem n) : m = n := by
  have hlist := congrArg String.toList h
  simp only [numbered, String.toList_ofList, List.cons.injEq, true_and,
    List.append_cancel_left_eq] at hlist
  have hnumber := congrArg (fun digits => Nat.ofDigitChars 10 digits 0) hlist
  simpa using hnumber

/-- More candidates than there are keys cannot all be keys. -/
theorem exists_find?_free (map : OrderedMap String α) (candidates : List String) (mark : Char)
    (stem : List Char)
    (h : ∀ n ≤ map.length, numbered mark stem n ∈ candidates) :
    ∃ text ∈ candidates, map.get? text = none ∧
      candidates.find? (fun candidate => !map.contains candidate) = some text := by
  cases hfind : candidates.find? (fun candidate => !map.contains candidate) with
  | some text =>
    have hfree := List.find?_some hfind
    exact ⟨text, List.mem_of_find?_eq_some hfind, by simpa [OrderedMap.contains] using hfree, rfl⟩
  | none =>
    exfalso
    let texts := (List.range (map.length + 1)).map (numbered mark stem)
    have hnodup : texts.Nodup := List.pairwise_map.2 <|
      List.nodup_range.imp fun hne heq => hne (numbered_inj heq)
    have hsubset : texts ⊆ map.keys := by
      intro text htext
      obtain ⟨n, hn, rfl⟩ := List.mem_map.1 htext
      have htaken := List.find?_eq_none.1 hfind _ (h n (by simpa [Nat.lt_succ_iff] using hn))
      exact OrderedMap.contains_iff.1 (by simpa using htaken)
    have hlength : map.length + 1 ≤ map.length := by
      simpa [texts, OrderedMap.keys] using hnodup.length_le_of_subset hsubset
    omega

/-- A free placeholder for a name is found. -/
theorem exists_free_name (map : OrderedMap String α) (attr : String) :
    ∃ text ∈ nameCandidates map.length attr, map.get? text = none ∧
      (nameCandidates map.length attr).find? (fun candidate => !map.contains candidate) =
        some text := by
  refine exists_find?_free map _ '#' (nameStem attr) fun n hn => ?_
  refine List.mem_map.2 ⟨_, List.mem_append_right _ (List.mem_map.2 ⟨n, ?_, rfl⟩), rfl⟩
  simpa [Nat.lt_succ_iff] using hn

/-- A free placeholder for a value is found. -/
theorem exists_free_value (map : OrderedMap String α) (attr suffix : String) :
    ∃ text ∈ valueCandidates map.length attr suffix, map.get? text = none ∧
      (valueCandidates map.length attr suffix).find? (fun candidate => !map.contains candidate) =
        some text := by
  refine exists_find?_free map _ ':' (valueStem attr ++ suffix.toList) fun n hn => ?_
  refine List.mem_map.2 ⟨_, List.mem_cons_of_mem _ (List.mem_map.2 ⟨n, ?_, rfl⟩), rfl⟩
  simpa [Nat.lt_succ_iff] using hn

theorem isWordChar_of_mem_sanitize {name : String} {c : Char} (h : c ∈ sanitize name) :
    Token.isWordChar c := (List.mem_filter.1 h).2

theorem nameStem_ne_nil (name : String) : nameStem name ≠ [] := by
  unfold nameStem
  split <;> simp_all

theorem valueStem_ne_nil (name : String) : valueStem name ≠ [] := by
  unfold valueStem
  split <;> simp_all

theorem isWordChar_of_mem_nameStem {name : String} {c : Char} (h : c ∈ nameStem name) :
    Token.isWordChar c := by
  unfold nameStem at h
  split at h
  · obtain rfl := List.mem_singleton.1 h
    rfl
  · obtain ⟨d, hd, rfl⟩ := List.mem_map.1 h
    exact Token.isWordChar_toUpper (isWordChar_of_mem_sanitize hd)

theorem isWordChar_of_mem_valueStem {name : String} {c : Char} (h : c ∈ valueStem name) :
    Token.isWordChar c := by
  unfold valueStem at h
  split at h
  · obtain rfl := List.mem_singleton.1 h
    rfl
  · exact isWordChar_of_mem_sanitize h

theorem isWordChar_of_mem_toDigits {n : Nat} {c : Char} (h : c ∈ Nat.toDigits 10 n) :
    Token.isWordChar c := by
  have hdigit : c.isDigit := Nat.isDigit_of_mem_toDigits (by decide) (by decide) h
  simp [Token.isWordChar, Char.isAlphanum, hdigit]

theorem isMarked_of_mem_nameCandidates {taken : Nat} {name text : String}
    (h : text ∈ nameCandidates taken name) : IsMarked '#' text := by
  obtain ⟨word, hword, rfl⟩ := List.mem_map.1 h
  have hstem := nameStem_ne_nil name
  rcases List.mem_append.1 hword with hword | hword
  · obtain ⟨n, -, rfl⟩ := List.mem_map.1 hword
    refine .ofList (by simpa using hstem) ?_
    intro c hc
    exact isWordChar_of_mem_nameStem (List.mem_of_mem_take hc)
  · obtain ⟨n, -, rfl⟩ := List.mem_map.1 hword
    refine .ofList (by simp [hstem]) ?_
    intro c hc
    rcases List.mem_append.1 hc with hc | hc
    · exact isWordChar_of_mem_nameStem hc
    · exact isWordChar_of_mem_toDigits hc

theorem isMarked_of_mem_valueCandidates {taken : Nat} {name suffix text : String}
    (hsuffix : ∀ c ∈ suffix.toList, Token.isWordChar c)
    (h : text ∈ valueCandidates taken name suffix) : IsMarked ':' text := by
  obtain ⟨word, hword, rfl⟩ := List.mem_map.1 h
  have hstem := valueStem_ne_nil name
  have hbase (c : Char) (hc : c ∈ valueStem name ++ suffix.toList) : Token.isWordChar c := by
    rcases List.mem_append.1 hc with hc | hc
    · exact isWordChar_of_mem_valueStem hc
    · exact hsuffix c hc
  rcases List.mem_cons.1 hword with rfl | hword
  · exact .ofList (by simp [hstem]) hbase
  · obtain ⟨n, -, rfl⟩ := List.mem_map.1 hword
    refine .ofList (by simp [hstem]) ?_
    intro c hc
    rcases List.mem_append.1 hc with hc | hc
    · exact hbase c hc
    · exact isWordChar_of_mem_toDigits hc

end Candidates

/-- The invariant of allocation: placeholders have their form, and each attribute has one. -/
structure IsSound (placeholders : Placeholders) : Prop where
  names_ascending : placeholders.names.IsAscending
  names_marked : ∀ text ∈ placeholders.names.keys, IsMarked '#' text
  values_marked : ∀ text ∈ placeholders.values.keys, IsMarked ':' text
  attributes_nodup : placeholders.names.values.Nodup

theorem isSound_empty : IsSound {} where
  names_ascending := .nil
  names_marked := by simp [OrderedMap.keys]
  values_marked := by simp [OrderedMap.keys]
  attributes_nodup := .nil

/-- Whether all that some placeholders stand for is kept by others. -/
structure Extends (before after : Placeholders) : Prop where
  names : ∀ text attr, before.names.get? text = some attr → after.names.get? text = some attr
  values : ∀ text json, before.values.get? text = some json → after.values.get? text = some json

theorem Extends.refl (placeholders : Placeholders) : placeholders.Extends placeholders where
  names _ _ h := h
  values _ _ h := h

theorem Extends.trans {a b c : Placeholders} (hab : a.Extends b) (hbc : b.Extends c) :
    a.Extends c where
  names text attr h := hbc.names text attr (hab.names text attr h)
  values text json h := hbc.values text json (hab.values text json h)

variable {placeholders : Placeholders} {attr suffix : String} {json : Json}

/-- An attribute has its placeholder already, or is given a free one. -/
theorem name_cases (placeholders : Placeholders) (attr : String) :
    (∃ text, (text, attr) ∈ placeholders.names ∧
      placeholders.name attr = (text, placeholders)) ∨
    (∃ text, attr ∉ placeholders.names.values ∧ IsMarked '#' text ∧
      placeholders.names.get? text = none ∧
      placeholders.name attr =
        (text, { placeholders with names := placeholders.names.insert text attr })) := by
  cases hfind : placeholders.names.find? (·.2 == attr) with
  | some entry =>
    have hattr : entry.2 = attr := by simpa using List.find?_some hfind
    refine .inl ⟨entry.1, hattr ▸ List.mem_of_find?_eq_some hfind, ?_⟩
    simp [name, hfind]
  | none =>
    have hnew : attr ∉ placeholders.names.values := by
      intro hmem
      obtain ⟨entry, hentry, rfl⟩ := List.mem_map.1 hmem
      simpa using List.find?_eq_none.1 hfind entry hentry
    obtain ⟨text, htext, hfree, hchoice⟩ := exists_free_name placeholders.names attr
    refine .inr ⟨text, hnew, isMarked_of_mem_nameCandidates htext, hfree, ?_⟩
    simp [name, hfind, hchoice]

/-- A value is given a free placeholder. -/
theorem value_eq (placeholders : Placeholders) (attr : String) (json : Json)
    (hsuffix : ∀ c ∈ suffix.toList, Token.isWordChar c) :
    ∃ text, IsMarked ':' text ∧ placeholders.values.get? text = none ∧
      placeholders.value attr suffix json =
        (text, { placeholders with values := placeholders.values.insert text json }) := by
  obtain ⟨text, htext, hfree, hchoice⟩ := exists_free_value placeholders.values attr suffix
  refine ⟨text, isMarked_of_mem_valueCandidates hsuffix htext, hfree, ?_⟩
  simp [value, hchoice]

/-- Names are allocated without touching values. -/
theorem values_name (placeholders : Placeholders) (attr : String) :
    (placeholders.name attr).2.values = placeholders.values := by
  obtain ⟨text, -, heq⟩ | ⟨text, -, -, -, heq⟩ := name_cases placeholders attr <;> rw [heq]

theorem extends_name : placeholders.Extends (placeholders.name attr).2 := by
  obtain ⟨text, -, heq⟩ | ⟨text, -, -, hfree, heq⟩ := name_cases placeholders attr
  · rw [heq]
    exact .refl _
  · rw [heq]
    refine ⟨?_, fun _ _ h => h⟩
    intro other a hother
    rw [OrderedMap.get?_insert_of_ne, hother]
    intro hsame
    obtain rfl := Std.LawfulEqCmp.eq_of_compare hsame
    simp [hfree] at hother

theorem mem_attributes_name {other : String} :
    other ∈ (placeholders.name attr).2.names.values ↔
      other = attr ∨ other ∈ placeholders.names.values := by
  obtain ⟨text, hmem, heq⟩ | ⟨text, -, -, hfree, heq⟩ := name_cases placeholders attr
  · have hattr : attr ∈ placeholders.names.values := List.mem_map.2 ⟨_, hmem, rfl⟩
    rw [heq]
    exact ⟨.inr, fun h => h.elim (· ▸ hattr) id⟩
  · have hperm := (OrderedMap.insert_perm attr hfree).map Prod.snd
    rw [heq]
    exact hperm.mem_iff.trans List.mem_cons

theorem IsSound.name (h : placeholders.IsSound) : (placeholders.name attr).2.IsSound := by
  obtain ⟨text, -, heq⟩ | ⟨text, hnew, hmarked, hfree, heq⟩ := name_cases placeholders attr
  · rwa [heq]
  · have hperm := OrderedMap.insert_perm attr hfree
    rw [heq]
    refine ⟨h.names_ascending.insert, fun other hother => ?_, h.values_marked, ?_⟩
    · rcases List.mem_cons.1 ((hperm.map Prod.fst).mem_iff.1 hother) with rfl | hother
      · exact hmarked
      · exact h.names_marked other hother
    · exact (hperm.map Prod.snd).nodup_iff.2 (List.nodup_cons.2 ⟨hnew, h.attributes_nodup⟩)

/-- The placeholder of an attribute stands for it. -/
theorem IsSound.get?_name (h : placeholders.IsSound) :
    (placeholders.name attr).2.names.get? (placeholders.name attr).1 = some attr := by
  obtain ⟨text, hmem, heq⟩ | ⟨text, -, -, -, heq⟩ := name_cases placeholders attr
  · rw [heq]
    exact h.names_ascending.get?_eq_some_iff.2 hmem
  · rw [heq]
    exact OrderedMap.get?_insert_self

section Value

variable (hsuffix : ∀ c ∈ suffix.toList, Token.isWordChar c)
include hsuffix

/-- Values are allocated without touching names. -/
theorem names_value : (placeholders.value attr suffix json).2.names = placeholders.names := by
  obtain ⟨text, -, -, heq⟩ := value_eq placeholders attr json hsuffix
  rw [heq]

theorem extends_value : placeholders.Extends (placeholders.value attr suffix json).2 := by
  obtain ⟨text, -, hfree, heq⟩ := value_eq placeholders attr json hsuffix
  rw [heq]
  refine ⟨fun _ _ h => h, ?_⟩
  intro other a hother
  rw [OrderedMap.get?_insert_of_ne, hother]
  intro hsame
  obtain rfl := Std.LawfulEqCmp.eq_of_compare hsame
  simp [hfree] at hother

/-- The placeholder of a value stands for it. -/
theorem get?_value :
    (placeholders.value attr suffix json).2.values.get?
      (placeholders.value attr suffix json).1 = some json := by
  obtain ⟨text, -, -, heq⟩ := value_eq placeholders attr json hsuffix
  rw [heq]
  exact OrderedMap.get?_insert_self

theorem mem_keys_value {other : String} :
    other ∈ (placeholders.value attr suffix json).2.values.keys ↔
      other = (placeholders.value attr suffix json).1 ∨ other ∈ placeholders.values.keys := by
  obtain ⟨text, -, hfree, heq⟩ := value_eq placeholders attr json hsuffix
  rw [heq]
  exact ((OrderedMap.insert_perm json hfree).map Prod.fst).mem_iff.trans List.mem_cons

theorem IsSound.value (h : placeholders.IsSound) :
    (placeholders.value attr suffix json).2.IsSound := by
  obtain ⟨text, hmarked, hfree, heq⟩ := value_eq placeholders attr json hsuffix
  rw [heq]
  refine ⟨h.names_ascending, h.names_marked, ?_, h.attributes_nodup⟩
  intro other hother
  have hperm := (OrderedMap.insert_perm json hfree).map Prod.fst
  rcases List.mem_cons.1 (hperm.mem_iff.1 hother) with rfl | hother
  · exact hmarked
  · exact h.values_marked other hother

end Value

end Placeholders

end KeyedStore
