import KeyedStore.Proofs.Plan.Placeholders
import Mathlib.Data.List.Nodup

/-!
# Runs of allocations

Placeholders are allocated one call after another. Whatever the calls were, the search for a free
placeholder has come to an end in each of them, an attribute and its placeholder stand for each
other, and each value has a placeholder of its own.
-/
namespace KeyedStore

/-- A placeholder for a name is read as a name. -/
theorem IsMarked.scan_name {text : String} (h : IsMarked '#' text) :
    Token.scan text = .ok [.name text] := by
  have htoken : (Operand.path text).token = .name text := by
    obtain ⟨word, htext, -⟩ := h
    simp [Operand.token, htext]
  exact htoken ▸ h.isLexical_path.reads.scan

/-- A placeholder for a value is read as a value. -/
theorem IsMarked.scan_value {text : String} (h : IsMarked ':' text) :
    Token.scan text = .ok [.value text] :=
  h.isLexical_value.reads.scan

namespace Placeholders

section Search

variable {α : Type} {map : OrderedMap String α} {found : String}

/-- The placeholders to be tried for an attribute name, without an end: the cuts of its stem, then
the stem with numbers. -/
def nameCandidate (name : String) (n : Nat) : String :=
  let stem := nameStem name
  String.ofList ('#' :: if n < stem.length then stem.take (n + 1)
    else stem ++ Nat.toDigits 10 (n - stem.length + 1))

/-- The placeholders to be tried for a value, without an end: the name with its suffix, then with
numbers. -/
def valueCandidate (name suffix : String) (n : Nat) : String :=
  let stem := valueStem name ++ suffix.toList
  String.ofList (':' :: if n = 0 then stem else stem ++ Nat.toDigits 10 n)

/-- Whether a search ends with a candidate: it is free, and those before it are taken. -/
def SearchEnds (candidate : Nat → String) (map : OrderedMap String α) (found : String) : Prop :=
  ∃ n, candidate n = found ∧ map.contains found = false ∧ ∀ m < n, map.contains (candidate m)

/-- A search among the first candidates that finds one ends with it. -/
theorem searchEnds_of_find? {candidate : Nat → String} {bound : Nat}
    (h : ((List.range bound).map candidate).find? (fun text => !map.contains text) = some found) :
    SearchEnds candidate map found := by
  rw [List.find?_map] at h
  obtain ⟨n, hn, rfl⟩ := Option.map_eq_some_iff.1 h
  obtain ⟨hfree, -, hbefore⟩ := List.find?_range_eq_some.1 hn
  exact ⟨n, rfl, by simpa using hfree, fun m hm => by simpa using hbefore m hm⟩

theorem nameCandidates_eq (taken : Nat) (name : String) : nameCandidates taken name =
    (List.range ((nameStem name).length + (taken + 1))).map (nameCandidate name) := by
  rw [List.range_add, List.map_append]
  unfold nameCandidates
  simp only [List.map_append, List.map_map]
  congr 1
  · refine List.map_congr_left fun n hn => ?_
    simp [nameCandidate, List.mem_range.1 hn]
  · refine List.map_congr_left fun n _ => ?_
    have hnumbered : ¬(nameStem name).length + n < (nameStem name).length := by omega
    simp [nameCandidate, hnumbered]

theorem valueCandidates_eq (taken : Nat) (name suffix : String) :
    valueCandidates taken name suffix =
      (List.range (taken + 2)).map (valueCandidate name suffix) := by
  rw [List.range_succ_eq_map, List.map_cons, List.map_map]
  unfold valueCandidates
  simp only [List.map_cons, List.map_map]
  rfl

end Search

/-- A call for a placeholder. -/
inductive Call where
  | name (attr : String)
  | value (attr suffix : String) (json : Json)

namespace Call

/-- The placeholder that a call is answered with, and the placeholders after it. -/
def answer (placeholders : Placeholders) : Call → String × Placeholders
  | name attr => placeholders.name attr
  | value attr suffix json => placeholders.value attr suffix json

/-- Whether the suffix of a call has letters, digits and underscores only. -/
def IsPlain : Call → Prop
  | name _ => True
  | value _ suffix _ => ∀ c ∈ suffix.toList, Token.isWordChar c

/-- Whether the search of a call comes to an end: a name has its placeholder already, or a free one
is found, which is the answer. -/
def Ends (placeholders : Placeholders) (call : Call) : Prop :=
  match call with
  | name attr =>
    ((call.answer placeholders).1, attr) ∈ placeholders.names ∨
      SearchEnds (nameCandidate attr) placeholders.names (call.answer placeholders).1
  | value attr suffix _ =>
    SearchEnds (valueCandidate attr suffix) placeholders.values (call.answer placeholders).1

/-- Every call comes to an end, since more is tried than is taken. -/
theorem ends (call : Call) (placeholders : Placeholders) : call.Ends placeholders := by
  cases call with
  | name attr =>
    cases hfind : placeholders.names.find? (·.2 == attr) with
    | some entry =>
      refine .inl ?_
      obtain rfl : entry.2 = attr := by simpa using List.find?_some hfind
      simpa [answer, Placeholders.name, hfind] using List.mem_of_find?_eq_some hfind
    | none =>
      refine .inr ?_
      obtain ⟨text, -, -, hchoice⟩ := exists_free_name placeholders.names attr
      have htext : (answer placeholders (.name attr)).1 = text := by
        simp [answer, Placeholders.name, hfind, hchoice]
      rw [htext]
      exact searchEnds_of_find? (nameCandidates_eq _ attr ▸ hchoice)
  | value attr suffix json =>
    obtain ⟨text, -, -, hchoice⟩ := exists_free_value placeholders.values attr suffix
    have htext : (answer placeholders (.value attr suffix json)).1 = text := by
      simp [answer, Placeholders.value, hchoice]
    unfold Ends
    rw [htext]
    exact searchEnds_of_find? (valueCandidates_eq _ attr suffix ▸ hchoice)

end Call

/-- The calls with the placeholders that they are answered with, and the placeholders after all of
them. -/
def run (placeholders : Placeholders) : List Call → List (Call × String) × Placeholders
  | [] => ([], placeholders)
  | call :: rest =>
    let (text, placeholders) := call.answer placeholders
    let (log, placeholders) := run placeholders rest
    ((call, text) :: log, placeholders)

/-- The placeholder of a value in a log, if the entry is for a value. -/
def valueAnswer? : Call × String → Option String
  | (.value .., text) => some text
  | (.name _, _) => none

variable {placeholders : Placeholders} {attr suffix : String} {json : Json} {call : Call}

/-- After a name was asked for, its placeholder is there besides those before. -/
theorem IsSound.get?_name_eq_some_iff (h : placeholders.IsSound) {text other : String} :
    (placeholders.name attr).2.names.get? text = some other ↔
      placeholders.names.get? text = some other ∨
        attr = other ∧ (placeholders.name attr).1 = text := by
  obtain ⟨own, hmem, heq⟩ | ⟨own, -, -, hfree, heq⟩ := name_cases placeholders attr
  · rw [heq]
    refine ⟨.inl, ?_⟩
    rintro (hget | ⟨rfl, rfl⟩)
    · exact hget
    · exact h.names_ascending.get?_eq_some_iff.2 hmem
  · rw [heq]
    have hcompare : compare text own = .eq ↔ own = text :=
      Std.LawfulEqCmp.compare_eq_iff_eq.trans eq_comm
    simp only [OrderedMap.get?_insert, hcompare]
    by_cases hown : own = text
    · subst hown
      simp [hfree]
    · simp [hown]

/-- After a placeholder for a value was asked for, it is there besides those before. -/
theorem get?_value_eq_some_iff (hsuffix : ∀ c ∈ suffix.toList, Token.isWordChar c) {text : String}
    {other : Json} :
    (placeholders.value attr suffix json).2.values.get? text = some other ↔
      placeholders.values.get? text = some other ∨
        json = other ∧ (placeholders.value attr suffix json).1 = text := by
  obtain ⟨own, -, hfree, heq⟩ := value_eq placeholders attr json hsuffix
  rw [heq]
  have hcompare : compare text own = .eq ↔ own = text :=
    Std.LawfulEqCmp.compare_eq_iff_eq.trans eq_comm
  simp only [OrderedMap.get?_insert, hcompare]
  by_cases hown : own = text
  · subst hown
    simp [hfree]
  · simp [hown]

theorem IsSound.answer (h : placeholders.IsSound) (hcall : call.IsPlain) :
    (call.answer placeholders).2.IsSound := by
  cases call with
  | name attr => exact h.name
  | value attr suffix json => exact h.value hcall

/-- What a call adds to the placeholders of names. -/
theorem IsSound.get?_names_answer (h : placeholders.IsSound) (hcall : call.IsPlain)
    {text attr : String} : (call.answer placeholders).2.names.get? text = some attr ↔
      placeholders.names.get? text = some attr ∨
        (.name attr, text) = (call, (call.answer placeholders).1) := by
  cases call with
  | name own => simp [Call.answer, h.get?_name_eq_some_iff, eq_comm]
  | value own suffix json => simp [Call.answer, names_value hcall]

/-- What a call adds to the placeholders of values. -/
theorem get?_values_answer (hcall : call.IsPlain) {text : String} {json : Json} :
    (call.answer placeholders).2.values.get? text = some json ↔
      placeholders.values.get? text = some json ∨ ∃ attr suffix,
        (.value attr suffix json, text) = (call, (call.answer placeholders).1) := by
  cases call with
  | name own => simp [Call.answer, values_name]
  | value own suffix value => simp [Call.answer, get?_value_eq_some_iff hcall, eq_comm]

/-- A placeholder that a value is given was not taken. -/
theorem get?_values_of_valueAnswer? (hcall : call.IsPlain) {text : String}
    (h : valueAnswer? (call, (call.answer placeholders).1) = some text) :
    placeholders.values.get? text = none ∧
      ∃ json, (call.answer placeholders).2.values.get? text = some json := by
  cases call with
  | name attr => cases h
  | value attr suffix json =>
    obtain ⟨own, -, hfree, heq⟩ := value_eq placeholders attr json hcall
    obtain rfl : own = text := by simpa [valueAnswer?, Call.answer, heq] using h
    exact ⟨hfree, json, by simp [Call.answer, heq]⟩

section Runs

variable {calls : List Call} (hcalls : ∀ call ∈ calls, call.IsPlain)
include hcalls

theorem IsSound.run (h : placeholders.IsSound) : (placeholders.run calls).2.IsSound := by
  induction calls generalizing placeholders with
  | nil => exact h
  | cons call rest ih =>
    obtain ⟨hcall, hrest⟩ := List.forall_mem_cons.1 hcalls
    exact ih hrest (h.answer hcall)

/-- The placeholders of names after some calls are those before and those that were answered. -/
theorem IsSound.get?_names_run (h : placeholders.IsSound) {text attr : String} :
    (placeholders.run calls).2.names.get? text = some attr ↔
      placeholders.names.get? text = some attr ∨
        (.name attr, text) ∈ (placeholders.run calls).1 := by
  induction calls generalizing placeholders with
  | nil => simp [Placeholders.run]
  | cons call rest ih =>
    obtain ⟨hcall, hrest⟩ := List.forall_mem_cons.1 hcalls
    rw [Placeholders.run, ih hrest (h.answer hcall), h.get?_names_answer hcall, or_assoc,
      List.mem_cons]

/-- The placeholders of values after some calls are those before and those that were answered. -/
theorem get?_values_run {text : String} {json : Json} :
    (placeholders.run calls).2.values.get? text = some json ↔
      placeholders.values.get? text = some json ∨
        ∃ attr suffix, (.value attr suffix json, text) ∈ (placeholders.run calls).1 := by
  induction calls generalizing placeholders with
  | nil => simp [Placeholders.run]
  | cons call rest ih =>
    obtain ⟨hcall, hrest⟩ := List.forall_mem_cons.1 hcalls
    rw [Placeholders.run, ih hrest, get?_values_answer hcall, or_assoc]
    simp only [List.mem_cons, exists_or]

/-- No placeholder is given to two values, or to one where it is taken. -/
theorem nodup_valueAnswers :
    ((placeholders.run calls).1.filterMap valueAnswer?).Nodup ∧
      ∀ text ∈ (placeholders.run calls).1.filterMap valueAnswer?,
        placeholders.values.get? text = none := by
  induction calls generalizing placeholders with
  | nil => simp [Placeholders.run]
  | cons call rest ih =>
    obtain ⟨hcall, hrest⟩ := List.forall_mem_cons.1 hcalls
    have hnodup : (((call.answer placeholders).2.run rest).1.filterMap valueAnswer?).Nodup :=
      (ih hrest).1
    have hfree : ∀ text ∈ ((call.answer placeholders).2.run rest).1.filterMap valueAnswer?,
        (call.answer placeholders).2.values.get? text = none := (ih hrest).2
    -- What is free after the call was free before it.
    have hbefore : ∀ text ∈ ((call.answer placeholders).2.run rest).1.filterMap valueAnswer?,
        placeholders.values.get? text = none := by
      intro text hmem
      refine Option.eq_none_iff_forall_not_mem.2 fun json hjson => ?_
      have hkept := (get?_values_answer hcall).2 (.inl hjson)
      exact nomatch (hfree text hmem).symm.trans hkept
    rw [Placeholders.run, List.filterMap_cons]
    cases hanswer : valueAnswer? (call, (call.answer placeholders).1) with
    | none => exact ⟨hnodup, hbefore⟩
    | some text =>
      obtain ⟨htext, json, htaken⟩ := get?_values_of_valueAnswer? hcall hanswer
      refine ⟨List.nodup_cons.2 ⟨fun hmem => ?_, hnodup⟩, List.forall_mem_cons.2 ⟨htext, hbefore⟩⟩
      exact nomatch (hfree text hmem).symm.trans htaken

end Runs

/-- Whether the placeholders that calls were answered with are told apart, and stand for what was
asked for. -/
structure TellsApart (log : List (Call × String)) (after : Placeholders) : Prop where
  names : ∀ text attr, after.names.get? text = some attr ↔ (.name attr, text) ∈ log
  /-- An attribute has one placeholder, and no other attribute has it. -/
  name_iff : ∀ attr text other otherText, (.name attr, text) ∈ log →
    (.name other, otherText) ∈ log → (text = otherText ↔ attr = other)
  values : ∀ text json, after.values.get? text = some json ↔
    ∃ attr suffix, (.value attr suffix json, text) ∈ log
  values_nodup : (log.filterMap valueAnswer?).Nodup
  isMarked_name : ∀ attr text, (.name attr, text) ∈ log →
    IsMarked '#' text ∧ Token.scan text = .ok [.name text]
  isMarked_value : ∀ attr suffix json text, (.value attr suffix json, text) ∈ log →
    IsMarked ':' text ∧ Token.scan text = .ok [.value text]

/-- In every run of calls all searches come to an end, and the placeholders that are answered are
told apart and read as single tokens. -/
theorem tellsApart_run {calls : List Call} (h : ∀ call ∈ calls, call.IsPlain) :
    (∀ before call after, calls = before ++ call :: after → call.Ends (run {} before).2) ∧
      (run {} calls).1.map (·.1) = calls ∧ TellsApart (run {} calls).1 (run {} calls).2 := by
  have hcalls (placeholders : Placeholders) : (placeholders.run calls).1.map (·.1) = calls := by
    clear h
    induction calls generalizing placeholders with
    | nil => rfl
    | cons call rest ih => rw [run, List.map_cons, ih]
  have hsound := isSound_empty.run h
  have hnames (text attr : String) :
      (run {} calls).2.names.get? text = some attr ↔ (.name attr, text) ∈ (run {} calls).1 := by
    simp [isSound_empty.get?_names_run h, OrderedMap.get?]
  have hvalues (text : String) (json : Json) : (run {} calls).2.values.get? text = some json ↔
      ∃ attr suffix, (.value attr suffix json, text) ∈ (run {} calls).1 := by
    simp [get?_values_run h, OrderedMap.get?]
  refine ⟨fun before call after _ => call.ends _, hcalls {}, hnames, ?_, hvalues,
    (nodup_valueAnswers h).1, ?_, ?_⟩
  · intro attr text other otherText hname hother
    have hget := (hnames text attr).2 hname
    have hgetOther := (hnames otherText other).2 hother
    constructor
    · rintro rfl
      exact Option.some.inj (hget.symm.trans hgetOther)
    · rintro rfl
      have hmem := OrderedMap.mem_of_get?_eq_some hget
      have hmemOther := OrderedMap.mem_of_get?_eq_some hgetOther
      exact congrArg Prod.fst
        (List.inj_on_of_nodup_map hsound.attributes_nodup hmem hmemOther rfl)
  · intro attr text hname
    have hmem := OrderedMap.mem_of_get?_eq_some ((hnames text attr).2 hname)
    have hmarked := hsound.names_marked text (List.mem_map.2 ⟨_, hmem, rfl⟩)
    exact ⟨hmarked, hmarked.scan_name⟩
  · intro attr suffix json text hvalue
    have hmem := OrderedMap.mem_of_get?_eq_some ((hvalues text json).2 ⟨attr, suffix, hvalue⟩)
    have hmarked := hsound.values_marked text (List.mem_map.2 ⟨_, hmem, rfl⟩)
    exact ⟨hmarked, hmarked.scan_value⟩

/-- Calls whose placeholders run into each other: a number that is appended makes a name that is
taken already. -/
def colliding : List Call :=
  [.name "a", .name "a1", .name "A", .name "a", .name "é", .value "a" "" .null,
    .value "a" "1" (.bool true), .value "a" "" (.bool false), .value "é" "_start" .null]

def collidingAnswers : List String :=
  ["#A", "#A1", "#A2", "#A", "#A3", ":a", ":a1", ":a2", ":v_start"]

/-- Calls that run into each other are told apart. -/
theorem tellsApart_colliding : (∀ call ∈ colliding, call.IsPlain) ∧
    (run {} colliding).1 = colliding.zip collidingAnswers ∧
    TellsApart (colliding.zip collidingAnswers) (run {} colliding).2 := by
  have hlog : (run {} colliding).1 = colliding.zip collidingAnswers := by rfl
  have hplain : ∀ call ∈ colliding, call.IsPlain := by
    simp only [colliding, List.forall_mem_cons]
    refine ⟨trivial, trivial, trivial, trivial, trivial, ?_, ?_, ?_, ?_, nofun⟩ <;>
      exact List.all_eq_true.1 rfl
  exact ⟨hplain, hlog, hlog ▸ (tellsApart_run hplain).2.2⟩

end Placeholders

end KeyedStore
