import KernelDispatch.DataType.Json
import KernelDispatch.Proofs.Json.Accepted
import KernelDispatch.Proofs.Json.Fields

/-!
# Logical types read back from JSON

A type is read from more documents than the one that is written for it: a name may stand in an
object of its own, the content of a list may have members of other names or be an array. Reading a
list opens two objects or arrays, so the limit on what may be open at once is a limit on the lists
around the innermost type. Whatever is read within the limit is also read from its compact text.
-/

namespace KernelDispatch.DataType

/-- Documents that stand for a type, with the number of objects and arrays that are open at once
while the type is read. -/
inductive WrittenAs : DataType → Nat → Json → Prop
  /-- The name of a type without parts. -/
  | name {t units} (ht : t ∈ simple) (hname : TextUnit.text? units = some t.name) :
      WrittenAs t 0 (.string units)
  /-- An object whose one member has the name of a type without parts and the value null. -/
  | tag {t units} (ht : t ∈ simple) (hname : TextUnit.text? units = some t.name) :
      WrittenAs t 1 (.object [(units, .null)])
  /-- A list whose content is an object with just one field `datatype`, and any members of other
  names. -/
  | field {t levels units members named inner} (hlist : TextUnit.text? units = some "List")
      (hnamed : Json.named? members = some named)
      (hfield : Json.known ["datatype"] named = [("datatype", inner)])
      (hinner : WrittenAs t levels inner) :
      WrittenAs (.list t) (levels + 2) (.object [(units, .object members)])
  /-- A list whose content is an array of one item. -/
  | item {t levels units inner} (hlist : TextUnit.text? units = some "List")
      (hinner : WrittenAs t levels inner) :
      WrittenAs (.list t) (levels + 2) (.object [(units, .array [inner])])

section Simple

variable {t : DataType}

theorem ofName?_name (ht : t ∈ simple) : ofName? t.name = some t := by
  revert t
  decide

theorem name_ne_list (ht : t ∈ simple) : t.name ≠ "List" := by
  revert t
  decide

theorem depth_simple (ht : t ∈ simple) : t.depth = 0 := by
  revert t
  decide

theorem toJson_simple (ht : t ∈ simple) : t.toJson = Json.ofText t.name := by
  cases t with
  | list => simp [simple] at ht
  | null | boolean | int | uint | float32 | float64 | utf8 | binary => rfl

theorem ofName?_eq_some_iff {s : String} : ofName? s = some t ↔ t ∈ simple ∧ t.name = s := by
  constructor
  · intro h
    exact ⟨List.mem_of_find?_eq_some h, by simpa using List.find?_some h⟩
  · rintro ⟨ht, rfl⟩
    exact ofName?_name ht

/-- Every type is a type without parts inside some lists. -/
theorem induction_simple {motive : DataType → Prop} (hsimple : ∀ t ∈ simple, motive t)
    (hlist : ∀ t, motive t → motive (.list t)) (t : DataType) : motive t := by
  induction t with
  | list t ih => exact hlist t ih
  | int w | uint w => cases w <;> exact hsimple _ (by simp [simple])
  | null | boolean | float32 | float64 | utf8 | binary => exact hsimple _ (by simp [simple])

end Simple

section Documents

variable {t : DataType} {levels room : Nat} {j inner : Json}

theorem element?_eq_some_iff {content : Json} : element? content = some inner ↔
    (∃ members named, content = .object members ∧ Json.named? members = some named ∧
      Json.known ["datatype"] named = [("datatype", inner)]) ∨ content = .array [inner] := by
  constructor
  · intro h
    unfold element? at h
    split at h
    · rename_i members
      simp only [Option.bind_eq_bind, Option.bind_eq_some_iff] at h
      obtain ⟨named, hnamed, value, hfield, rfl⟩ := h
      exact .inl ⟨members, named, rfl, hnamed, Json.field?_eq_some_iff.mp hfield⟩
    · cases h
      exact .inr rfl
    · cases h
  · rintro (⟨members, named, rfl, hnamed, hfield⟩ | rfl)
    · simp [element?, hnamed, Json.field?_eq_some_iff.mpr hfield]
    · rfl

theorem ofJson?_list {units : List TextUnit} {content : Json}
    (hlist : TextUnit.text? units = some "List") (helement : element? content = some inner)
    (ht : ofJson? room inner = some t) :
    ofJson? (room + 2) (.object [(units, content)]) = some (.list t) := by
  simp [ofJson?, hlist, helement, ht]

theorem WrittenAs.read (h : t.WrittenAs levels j) (hroom : levels ≤ room) :
    ofJson? room j = some t := by
  induction h generalizing room with
  | name ht hname => simp [ofJson?, hname, ofName?_name ht]
  | tag ht hname =>
    obtain ⟨room, rfl⟩ := Nat.exists_eq_add_of_le' hroom
    -- The room is looked at before the name, as a list would need one level more.
    cases room <;> simp [ofJson?, hname, ofName?_name ht, name_ne_list ht]
  | field hlist hnamed hfield _ ih =>
    obtain ⟨room, rfl⟩ := Nat.exists_eq_add_of_le' (show 2 ≤ room by omega)
    have helement := element?_eq_some_iff.mpr (.inl ⟨_, _, rfl, hnamed, hfield⟩)
    exact ofJson?_list hlist helement (ih (by omega))
  | item hlist _ ih =>
    obtain ⟨room, rfl⟩ := Nat.exists_eq_add_of_le' (show 2 ≤ room by omega)
    exact ofJson?_list hlist rfl (ih (by omega))

theorem writtenAs_of_ofJson? (h : ofJson? room j = some t) :
    ∃ levels, levels ≤ room ∧ t.WrittenAs levels j := by
  fun_induction ofJson? room j generalizing t with
  | case1 room units =>
    obtain ⟨s, hs, hname⟩ := Option.bind_eq_some_iff.mp h
    obtain ⟨ht, rfl⟩ := ofName?_eq_some_iff.mp hname
    exact ⟨0, by omega, .name ht hs⟩
  | case6 units content hlist room inner helement ih =>
    obtain ⟨t, ht, rfl⟩ := Option.map_eq_some_iff.mp h
    obtain ⟨levels, hlevels, hinner⟩ := ih ht
    refine ⟨levels + 2, by omega, ?_⟩
    rcases element?_eq_some_iff.mp helement with ⟨members, named, rfl, hnamed, hfield⟩ | rfl
    · exact .field hlist hnamed hfield hinner
    · exact .item hlist hinner
  | case7 room units name hlist hs =>
    obtain ⟨ht, rfl⟩ := ofName?_eq_some_iff.mp h
    exact ⟨1, by omega, .tag ht hs⟩
  | case2 | case3 | case4 | case5 | case8 | case9 => cases h

theorem WrittenAs.two_mul_depth_le (h : t.WrittenAs levels j) : 2 * t.depth ≤ levels := by
  induction h with
  | name ht | tag ht => simp [depth_simple ht]
  | field _ _ _ _ ih | item _ _ ih =>
    rw [depth]
    omega

/-- The document of a type opens two objects for each list. -/
theorem writtenAs_toJson (t : DataType) : t.WrittenAs (2 * t.depth) t.toJson := by
  induction t using induction_simple with
  | hsimple t ht =>
    rw [depth_simple ht, toJson_simple ht]
    exact .name ht (TextUnit.text?_map_char t.name)
  | hlist t ih =>
    have hcontent := Json.named?_ofMembers [("datatype", t.toJson)]
    exact .field (TextUnit.text?_map_char "List") hcontent rfl ih

theorem plain_toJson (t : DataType) : t.toJson.Plain := by
  induction t using induction_simple with
  | hsimple t ht =>
    rw [toJson_simple ht]
    refine .string (Json.plainUnits_text ?_)
    revert t
    simp [simple, name, Width.suffix]
  | hlist t ih =>
    have hcontent : (Json.ofMembers [("datatype", t.toJson)]).Plain :=
      .ofMembers (by simp) (by simpa using ih)
    exact .ofMembers (by simp) (by simpa using hcontent)

end Documents

section Texts

variable {t : DataType} {text : String}

/-- A text stands for a type exactly if it spells a document of the type within the limit. -/
theorem parse?_eq_some_iff : parse? text = some t ↔
    ∃ levels j, levels ≤ Json.nestingLimit ∧ t.WrittenAs levels j ∧ Json.SpelledBy j text := by
  rw [parse?, Option.bind_eq_bind, Option.bind_eq_some_iff]
  constructor
  · rintro ⟨j, htext, ht⟩
    obtain ⟨levels, hlevels, hj⟩ := writtenAs_of_ofJson? ht
    exact ⟨levels, j, hlevels, hj, Json.parse?_eq_some_iff.mp htext⟩
  · rintro ⟨levels, j, hlevels, hj, htext⟩
    exact ⟨j, Json.parse?_eq_some_iff.mpr htext, hj.read hlevels⟩

theorem parse?_compact (h : t.depth ≤ 63) : parse? t.compact = some t :=
  parse?_eq_some_iff.mpr ⟨2 * t.depth, t.toJson, by rw [Json.nestingLimit]; omega,
    writtenAs_toJson t, (plain_toJson t).spelledBy_compact⟩

theorem depth_le_of_parse? (h : parse? text = some t) : t.depth ≤ 63 := by
  obtain ⟨levels, j, hlevels, hj, -⟩ := parse?_eq_some_iff.mp h
  have hdepth := hj.two_mul_depth_le
  rw [Json.nestingLimit] at hlevels
  omega

/-- The compact text of a type is read as this type if and only if there are at most 63 lists around
its innermost type. The texts that are accepted for a type are those that spell one of its documents
with at most 127 objects and arrays open at once. What was read from an accepted text is read again
from its compact text, and two accepted texts stand for the same type exactly if the compact texts
of what they stand for are the same. -/
theorem compact_canonical :
    (∀ t : DataType, parse? t.compact = some t ↔ t.depth ≤ 63) ∧
      (∀ (text : String) (t : DataType), parse? text = some t ↔
        ∃ levels j, levels ≤ 127 ∧ t.WrittenAs levels j ∧ Json.SpelledBy j text) ∧
      (∀ (text : String) (t : DataType), parse? text = some t → parse? t.compact = some t) ∧
      ∀ (text₁ text₂ : String) (t₁ t₂ : DataType), parse? text₁ = some t₁ → parse? text₂ = some t₂ →
        (t₁ = t₂ ↔ t₁.compact = t₂.compact) := by
  refine ⟨fun t => ⟨depth_le_of_parse?, parse?_compact⟩, fun text t => parse?_eq_some_iff, ?_, ?_⟩
  · intro text t h
    exact parse?_compact (depth_le_of_parse? h)
  · intro text₁ text₂ t₁ t₂ h₁ h₂
    constructor
    · rintro rfl
      rfl
    · intro h
      have hread₁ := parse?_compact (depth_le_of_parse? h₁)
      have hread₂ := parse?_compact (depth_le_of_parse? h₂)
      rw [h, hread₂] at hread₁
      exact (Option.some.inj hread₁).symm

/-- A list with blanks and a member of another name around an innermost type in an object of its
own, the same list as an array with a numbered escape, and the innermost type alone. Of two compact
texts of nested lists the one with 63 lists is read back and the one with 64 is not. -/
theorem compact_canonical_nested :
    (parse? "\x7b \"List\":\x7b\"x\":[2.5e3, 1],\"datatype\":\x7b\"Int8\":null\x7d\x7d \x7d" =
        some (.list (.int .w8)) ∧
      parse? "\x7b\"List\":[\"Int\\u0038\"]\x7d" = some (.list (.int .w8)) ∧
      parse? "\"Int8\"" = some (.int .w8)) ∧
    parse? (list (.int .w8)).compact = some (.list (.int .w8)) ∧
    (list (.int .w8)).compact ≠ (int .w8).compact ∧
    parse? (list^[63] .null).compact = some (list^[63] .null) ∧
    parse? (list^[64] .null).compact ≠ some (list^[64] .null) := by
  obtain ⟨hcompact, -, hagain, hsame⟩ := compact_canonical
  refine ⟨⟨?field, ?item, ?name⟩, hagain _ _ ?field, mt (hsame _ _ _ _ ?item ?name).mpr ?different,
    (hcompact _).mpr ?shallow, mt (hcompact _).mp ?deep⟩
  case field => decide +kernel
  case item => decide +kernel
  case name => decide +kernel
  case different => decide
  case shallow => decide
  case deep => decide

end Texts

end KernelDispatch.DataType
