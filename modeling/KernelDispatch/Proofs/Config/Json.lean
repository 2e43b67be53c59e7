import KernelDispatch.Proofs.Json.Fields

/-!
# Settings read back from JSON

An object gives the settings that its known fields write over the defaults, in any order and with
any members of other names between them. The compact text of settings holds all four fields and so
gives these settings again.
-/

namespace KernelDispatch

namespace LaunchDims

def fieldNames : List String := ["grid_size_x", "block_size_x"]

/-- Objects that hold a launch shape: both its fields in either order, and any members of other
names. -/
def WrittenAs (D : LaunchDims) (j : Json) : Prop :=
  ∃ members named, j = .object members ∧ Json.named? members = some named ∧
    (Json.known fieldNames named =
        [("grid_size_x", .integer D.gridSize.toNat), ("block_size_x", .integer D.blockSize.toNat)] ∨
      Json.known fieldNames named =
        [("block_size_x", .integer D.blockSize.toNat), ("grid_size_x", .integer D.gridSize.toNat)])

theorem ofJson?_writtenAs {D : LaunchDims} {j : Json} (h : D.WrittenAs j) : ofJson? j = some D := by
  obtain ⟨members, named, rfl, hnamed, hknown⟩ := h
  have hgrid : Json.field? "grid_size_x" named = some (some (.integer D.gridSize.toNat)) := by
    rw [← Json.field?_known (show "grid_size_x" ∈ fieldNames by decide)]
    rcases hknown with h | h <;> rw [h] <;> rfl
  have hblock : Json.field? "block_size_x" named = some (some (.integer D.blockSize.toNat)) := by
    rw [← Json.field?_known (show "block_size_x" ∈ fieldNames by decide)]
    rcases hknown with h | h <;> rw [h] <;> rfl
  simp [ofJson?, hnamed, Json.required?_of_field hgrid, Json.required?_of_field hblock,
    Json.unsigned32?_toNat]

theorem writtenAs_toJson (D : LaunchDims) : D.WrittenAs D.toJson :=
  ⟨_, _, rfl, Json.named?_ofMembers _, .inl rfl⟩

/-- What no launch shape is read from. -/
inductive Refused : Json → Prop
  | null : Refused .null
  /-- A field is missing or repeated. -/
  | field {members named name} (hnamed : Json.named? members = some named)
      (hname : name ∈ fieldNames) (hcount : (named.map Prod.fst).count name ≠ 1) :
      Refused (.object members)
  | number {members named name j} (hnamed : Json.named? members = some named)
      (hname : name ∈ fieldNames) (hm : (name, j) ∈ named) (hj : j.RefusedNumber 0 (2 ^ 32 - 1)) :
      Refused (.object members)

theorem ofJson?_eq_none {members : List (List TextUnit × Json)} {named : List (String × Json)}
    {name : String} (hnamed : Json.named? members = some named) (hname : name ∈ fieldNames)
    (h : Json.required? name Json.unsigned32? named = none) : ofJson? (.object members) = none := by
  simp only [fieldNames, List.mem_cons, List.not_mem_nil, or_false] at hname
  rcases hname with rfl | rfl
  · simp [ofJson?, hnamed, h]
  · simp [ofJson?, hnamed, h]

theorem ofJson?_refused {j : Json} (h : Refused j) : ofJson? j = none := by
  cases h with
  | null => rfl
  | field hnamed hname hcount => exact ofJson?_eq_none hnamed hname (Json.required?_of_count hcount)
  | number hnamed hname hm hj =>
    exact ofJson?_eq_none hnamed hname (Json.required?_eq_none hm (Json.unsigned32?_refused hj))

end LaunchDims

namespace DeviceType

theorem ofJsonName?_jsonName (t : DeviceType) : ofJsonName? t.jsonName = some t := by
  cases t <;> rfl

theorem parse?_compact (t : DeviceType) : parse? t.compact = some t := by
  have hplain : (Json.ofText t.jsonName).Plain :=
    .string (Json.plainUnits_text (by cases t <;> simp [jsonName]))
  have hname : (Json.ofText t.jsonName).choice? Json.nestingLimit = some t.jsonName :=
    TextUnit.text?_map_char t.jsonName
  rw [parse?, compact, Json.parse?_of_spelledBy hplain.spelledBy_compact]
  simp [hname, ofJsonName?_jsonName]

end DeviceType

theorem UnsetRowCount.ofJsonName?_jsonName (p : UnsetRowCount) :
    ofJsonName? p.jsonName = some p := by
  cases p <;> rfl

namespace Config

inductive Field
  | deviceId (id : DeviceId)
  | launch (shape : LaunchDims)
  | unsetRowCount (policy : UnsetRowCount)
  | sentinel (value : BitVec 64)

def fieldNames : List String := ["device_id", "launch", "gpu_unset_row_count", "row_count_sentinel"]

namespace Field

def name : Field → String
  | deviceId _ => "device_id"
  | launch _ => "launch"
  | unsetRowCount _ => "gpu_unset_row_count"
  | sentinel _ => "row_count_sentinel"

def WrittenAs : Field → Json → Prop
  | deviceId id, j => j = .integer id.toNat
  | launch shape, j => shape.WrittenAs j
  | unsetRowCount policy, j => ∃ units, j = .string units ∧
      TextUnit.text? units = some policy.jsonName
  | sentinel value, j => j = .integer value.toInt

end Field

def set (c : Config) : Field → Config
  | .deviceId id => { c with deviceId := id }
  | .launch shape => { c with launch := shape }
  | .unsetRowCount policy => { c with unsetRowCount := policy }
  | .sentinel value => { c with sentinel := value }

/-- The members of an object hold these fields, in this order. -/
def Holds (fields : List Field) (members : List (String × Json)) : Prop :=
  List.Forall₂ (fun f m => m.1 = f.name ∧ f.WrittenAs m.2) fields members

section Reading

variable {α : Type} {name : String} {read : Json → Option α} {fields : List Field}
  {members : List (String × Json)}

theorem get_foldl_set {get : Config → α}
    (hother : ∀ (c : Config) (f : Field), f.name ≠ name → get (c.set f) = get c)
    (hfields : name ∉ fields.map Field.name) (c : Config) : get (fields.foldl set c) = get c := by
  induction fields generalizing c with
  | nil => rfl
  | cons f fields ih =>
    rw [List.map_cons, List.mem_cons, not_or] at hfields
    rw [List.foldl_cons, ih hfields.2, hother c f (Ne.symm hfields.1)]

theorem Holds.names (h : Holds fields members) : members.map Prod.fst = fields.map Field.name := by
  induction h with
  | nil => rfl
  | cons hm _ ih => rw [List.map_cons, List.map_cons, hm.1, ih]

/-- A field that is written gives its value; one that is not keeps what was there. -/
theorem optional?_holds (get : Config → α)
    (hother : ∀ (c : Config) (f : Field), f.name ≠ name → get (c.set f) = get c)
    (hread : ∀ (c : Config) (f : Field) (j : Json), f.name = name → f.WrittenAs j →
      read j = some (get (c.set f)))
    (h : Holds fields members) (hdistinct : (fields.map Field.name).Nodup) (c : Config) :
    Json.optional? name read (get c) members = some (get (fields.foldl set c)) := by
  induction h generalizing c with
  | nil => rfl
  | @cons f m fields members hm hrest ih =>
    obtain ⟨key, value⟩ := m
    obtain ⟨rfl, hwritten⟩ := hm
    rw [List.map_cons, List.nodup_cons] at hdistinct
    rw [List.foldl_cons]
    by_cases hname : f.name = name
    · subst hname
      have hfield := Json.field?_cons_self value (Holds.names hrest ▸ hdistinct.1)
      rw [Json.optional?_of_field hfield, hread c f value rfl hwritten,
        get_foldl_set hother hdistinct.1]
    · have hget := hother c f hname
      rw [← hget, ← ih hdistinct.2 (c.set f), Json.optional?, Json.optional?,
        Json.field?_cons_of_ne hname]

end Reading

section Fields

variable {fields : List Field} {members : List (String × Json)}

theorem optional?_deviceId (h : Holds fields members) (hdistinct : (fields.map Field.name).Nodup)
    (c : Config) :
    Json.optional? "device_id" Json.unsigned32? c.deviceId members =
      some (fields.foldl set c).deviceId := by
  refine optional?_holds Config.deviceId ?_ ?_ h hdistinct c
  · intro c f hname
    cases f with
    | deviceId => exact absurd rfl hname
    | launch | unsetRowCount | sentinel => rfl
  · intro c f j hname hwritten
    cases f with
    | deviceId id =>
      obtain rfl : j = .integer id.toNat := hwritten
      exact Json.unsigned32?_toNat id
    | launch | unsetRowCount | sentinel => simp [Field.name] at hname

theorem optional?_launch (h : Holds fields members) (hdistinct : (fields.map Field.name).Nodup)
    (c : Config) :
    Json.optional? "launch" LaunchDims.ofJson? c.launch members =
      some (fields.foldl set c).launch := by
  refine optional?_holds Config.launch ?_ ?_ h hdistinct c
  · intro c f hname
    cases f with
    | launch => exact absurd rfl hname
    | deviceId | unsetRowCount | sentinel => rfl
  · intro c f j hname hwritten
    cases f with
    | launch => exact LaunchDims.ofJson?_writtenAs hwritten
    | deviceId | unsetRowCount | sentinel => simp [Field.name] at hname

theorem optional?_unsetRowCount (h : Holds fields members)
    (hdistinct : (fields.map Field.name).Nodup) (c : Config) :
    Json.optional? "gpu_unset_row_count" UnsetRowCount.ofJson? c.unsetRowCount members =
      some (fields.foldl set c).unsetRowCount := by
  refine optional?_holds Config.unsetRowCount ?_ ?_ h hdistinct c
  · intro c f hname
    cases f with
    | unsetRowCount => exact absurd rfl hname
    | deviceId | launch | sentinel => rfl
  · intro c f j hname hwritten
    cases f with
    | unsetRowCount policy =>
      obtain ⟨units, rfl, htext⟩ := hwritten
      rw [UnsetRowCount.ofJson?, Json.choice?, htext]
      exact UnsetRowCount.ofJsonName?_jsonName policy
    | deviceId | launch | sentinel => simp [Field.name] at hname

theorem optional?_sentinel (h : Holds fields members) (hdistinct : (fields.map Field.name).Nodup)
    (c : Config) : Json.optional? "row_count_sentinel" Json.signed64? c.sentinel members =
      some (fields.foldl set c).sentinel := by
  refine optional?_holds Config.sentinel ?_ ?_ h hdistinct c
  · intro c f hname
    cases f with
    | sentinel => exact absurd rfl hname
    | deviceId | launch | unsetRowCount => rfl
  · intro c f j hname hwritten
    cases f with
    | sentinel value =>
      obtain rfl : j = .integer value.toInt := hwritten
      exact Json.signed64?_toInt value
    | deviceId | launch | unsetRowCount => simp [Field.name] at hname

/-- Members that hold fields of distinct names replace just these fields of the defaults. -/
theorem ofFields?_holds (h : Holds fields (Json.known fieldNames members))
    (hdistinct : (fields.map Field.name).Nodup) :
    ofFields? members = some (fields.foldl set {}) := by
  have hknown {α : Type} {name : String} (hname : name ∈ fieldNames) (read : Json → Option α)
      (absent : α) : Json.optional? name read absent members =
        Json.optional? name read absent (Json.known fieldNames members) := by
    rw [Json.optional?, Json.optional?, Json.field?_known hname]
  rw [ofFields?, hknown (by decide), hknown (by decide), hknown (by decide), hknown (by decide),
    optional?_deviceId h hdistinct, optional?_launch h hdistinct,
    optional?_unsetRowCount h hdistinct, optional?_sentinel h hdistinct]
  rfl

end Fields

/-- What a known field is not read from. -/
inductive Refused : String → Json → Prop
  | deviceId {j} (hj : j.RefusedNumber 0 (2 ^ 32 - 1)) : Refused "device_id" j
  | launch {j} (hj : LaunchDims.Refused j) : Refused "launch" j
  | unsetRowCount : Refused "gpu_unset_row_count" .null
  | sentinel {j} (hj : j.RefusedNumber (-2 ^ 63) (2 ^ 63 - 1)) : Refused "row_count_sentinel" j

section Refusals

variable {members : List (String × Json)} {name : String} {j : Json}

theorem ofFields?_eq_none
    (h : Json.optional? "device_id" Json.unsigned32? (({} : Config).deviceId) members = none ∨
      Json.optional? "launch" LaunchDims.ofJson? (({} : Config).launch) members = none ∨
      Json.optional? "gpu_unset_row_count" UnsetRowCount.ofJson? (({} : Config).unsetRowCount)
        members = none ∨
      Json.optional? "row_count_sentinel" Json.signed64? (({} : Config).sentinel) members = none) :
    ofFields? members = none := by
  rcases h with h | h | h | h
  all_goals simp only [ofFields?, Option.bind_eq_bind, h, Option.bind_none, Option.bind_fun_none]

theorem ofFields?_repeated (hname : name ∈ fieldNames)
    (hcount : 1 < (members.map Prod.fst).count name) : ofFields? members = none := by
  simp only [fieldNames, List.mem_cons, List.not_mem_nil, or_false] at hname
  apply ofFields?_eq_none
  rcases hname with rfl | rfl | rfl | rfl
  · exact .inl (Json.optional?_of_repeated hcount)
  · exact .inr (.inl (Json.optional?_of_repeated hcount))
  · exact .inr (.inr (.inl (Json.optional?_of_repeated hcount)))
  · exact .inr (.inr (.inr (Json.optional?_of_repeated hcount)))

theorem ofFields?_refused (hm : (name, j) ∈ members) (h : Refused name j) :
    ofFields? members = none := by
  apply ofFields?_eq_none
  cases h with
  | deviceId hj => exact .inl (Json.optional?_eq_none hm (Json.unsigned32?_refused hj))
  | launch hj => exact .inr (.inl (Json.optional?_eq_none hm (LaunchDims.ofJson?_refused hj)))
  | unsetRowCount => exact .inr (.inr (.inl (Json.optional?_eq_none hm rfl)))
  | sentinel hj => exact .inr (.inr (.inr (Json.optional?_eq_none hm (Json.signed64?_refused hj))))

end Refusals

theorem parse?_of_hasMembers {text : String} {named : List (String × Json)}
    (h : Json.HasMembers text named) : parse? text = ofFields? named := by
  obtain ⟨members, hspelled, hnamed⟩ := h
  rw [parse?, Json.parse?_of_spelledBy hspelled]
  simp [ofJson?, hnamed]

/-- All fields of settings, in the order of the compact form. -/
def allFields (c : Config) : List Field :=
  [.deviceId c.deviceId, .launch c.launch, .unsetRowCount c.unsetRowCount, .sentinel c.sentinel]

theorem plain_toJson (c : Config) : c.toJson.Plain := by
  have hlaunch : c.launch.toJson.Plain := by
    refine Json.Plain.ofMembers (by simp) ?_
    simp [Json.Plain.integer]
  have hpolicy : (Json.ofText c.unsetRowCount.jsonName).Plain :=
    .string (Json.plainUnits_text (by cases c.unsetRowCount <;> simp [UnsetRowCount.jsonName]))
  refine Json.Plain.ofMembers (by simp) ?_
  simp [Json.Plain.integer, hlaunch, hpolicy]

theorem hasMembers_compact (c : Config) :
    ∃ named, Json.HasMembers c.compact named ∧ Holds c.allFields (Json.known fieldNames named) := by
  refine ⟨_, Json.hasMembers_compact (plain_toJson c), ?_⟩
  have hpolicy : (Field.unsetRowCount c.unsetRowCount).WrittenAs
      (Json.ofText c.unsetRowCount.jsonName) :=
    ⟨_, rfl, TextUnit.text?_map_char _⟩
  exact .cons ⟨rfl, rfl⟩ <| .cons ⟨rfl, c.launch.writtenAs_toJson⟩ <| .cons ⟨rfl, hpolicy⟩ <|
    .cons ⟨rfl, rfl⟩ .nil

/-- Settings survive their compact text. An object of known fields with distinct names, in any order
and with any members of other names between them, replaces just these fields of the defaults. A
known field that is repeated or that holds what it cannot be read from refuses the text. -/
theorem json_round_trip :
    (∀ c : Config, parse? c.compact = some c) ∧
      ∀ (text : String) (named : List (String × Json)), Json.HasMembers text named →
        (∀ fields : List Field, Holds fields (Json.known fieldNames named) →
          (fields.map Field.name).Nodup → parse? text = some (fields.foldl set {})) ∧
        (∀ name ∈ fieldNames, 1 < (named.map Prod.fst).count name → parse? text = none) ∧
        (∀ m ∈ named, Refused m.1 m.2 → parse? text = none) := by
  constructor
  · intro c
    obtain ⟨named, hmembers, hholds⟩ := hasMembers_compact c
    rw [parse?_of_hasMembers hmembers, ofFields?_holds hholds (by simp [allFields, Field.name])]
    rfl
  · intro text named hmembers
    rw [parse?_of_hasMembers hmembers]
    refine ⟨fun fields hholds hdistinct => ofFields?_holds hholds hdistinct, ?_, ?_⟩
    · intro name hname hcount
      exact ofFields?_repeated hname hcount
    · intro m hm hrefused
      exact ofFields?_refused hm hrefused

/-- Two known fields with another member between them and blanks around the values, a repeated
field, and a launch shape without its grid. -/
theorem json_round_trip_partial :
    parse? "\x7b\"row_count_sentinel\": -5, \"note\":[ ],\"launch\":\x7b\"block_size_x\":32,\"grid_size_x\": 4\x7d \x7d" =
        some { launch := ⟨4, 32⟩, sentinel := -5 } ∧
      parse? (Json.ofMembers [("device_id", .integer 1), ("device_id", .integer 1)]).compact =
        none ∧
      parse? (Json.ofMembers [("launch", .ofMembers [("block_size_x", .integer 32)])]).compact =
        none := by
  have hnone : Json.Blank [] := Json.blank_nil
  have hblank : Json.Blank [' '] := by simp [Json.Blank, Json.isBlank]
  have hname (s : String) (hs : ∀ c ∈ s.toList, c ≠ '"' ∧ c ≠ '\\' ∧ 32 ≤ c.toNat) :=
    Json.spellsUnits_self hs
  have hlaunch := Json.Spells.object <|
    .more hnone (hname "block_size_x" (by simp)) hnone hnone (.integer 32) hnone <|
    .last hnone (hname "grid_size_x" (by simp)) hnone hblank (.integer 4) hnone
  have hdocument := Json.Spells.object <|
    .more hnone (hname "row_count_sentinel" (by simp)) hnone hblank (.integer (-5)) hnone <|
    .more hblank (hname "note" (by simp)) hnone hnone (.emptyArray hblank) hnone <|
    .last hnone (hname "launch" (by simp)) hnone hnone hlaunch hblank
  let launch := Json.ofMembers [("block_size_x", .integer 32), ("grid_size_x", .integer 4)]
  let named := [("row_count_sentinel", .integer (-5)), ("note", .array []), ("launch", launch)]
  refine ⟨?_, ?_, ?_⟩
  · refine (json_round_trip.2 _ named ⟨_, ⟨[], _, [], hnone, hdocument, hnone, ?_⟩,
      Json.named?_ofMembers named⟩).1 [.sentinel (-5), .launch ⟨4, 32⟩] ?_ (by simp [Field.name])
    · decide
    · exact .cons ⟨rfl, rfl⟩ (.cons ⟨rfl, _, _, rfl, Json.named?_ofMembers _, .inr rfl⟩ .nil)
  · have hplain : (Json.ofMembers [("device_id", .integer 1), ("device_id", .integer 1)]).Plain :=
      .ofMembers (by simp) (by simp [Json.Plain.integer])
    exact (json_round_trip.2 _ _ (Json.hasMembers_compact hplain)).2.1 "device_id" (by decide)
      (by decide)
  · have hlaunchPlain : (Json.ofMembers [("block_size_x", .integer 32)]).Plain :=
      .ofMembers (by simp) (by simp [Json.Plain.integer])
    have hplain : (Json.ofMembers [("launch", .ofMembers [("block_size_x", .integer 32)])]).Plain :=
      .ofMembers (by simp) (by simp [hlaunchPlain])
    exact (json_round_trip.2 _ _ (Json.hasMembers_compact hplain)).2.2 _ List.mem_cons_self
      (.launch (.field (Json.named?_ofMembers [("block_size_x", .integer 32)])
        (show "grid_size_x" ∈ LaunchDims.fieldNames by decide) (by decide)))

end Config

end KernelDispatch
