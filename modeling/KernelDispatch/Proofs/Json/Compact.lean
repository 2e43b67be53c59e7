import KernelDispatch.Proofs.Json.Spelling

/-!
# The compact form spells its document

This holds for documents without control characters in their strings and without real numbers: a
control character that has no short escape is written as a numbered one and so is read back as a
number.
-/

namespace KernelDispatch.Json

def PlainUnits (units : List TextUnit) : Prop :=
  ∀ unit ∈ units, ∃ c : Char, unit = .char c ∧ 32 ≤ c.toNat

/-- Documents of integers, plain strings, and arrays and objects of such. -/
inductive Plain : Json → Prop
  | null : Plain .null
  | bool (value : Bool) : Plain (.bool value)
  | integer (n : Int) : Plain (.integer n)
  | string {units : List TextUnit} (hunits : PlainUnits units) : Plain (.string units)
  | array {items : List Json} (hitems : ∀ item ∈ items, Plain item) : Plain (.array items)
  | object {members : List (List TextUnit × Json)} (hnames : ∀ m ∈ members, PlainUnits m.1)
      (hvalues : ∀ m ∈ members, Plain m.2) : Plain (.object members)

theorem blank_nil : Blank [] := fun _ hc => by cases hc

theorem plainUnits_text {s : String} (hs : ∀ c ∈ s.toList, 32 ≤ c.toNat) :
    PlainUnits (s.toList.map .char) := by
  intro unit hunit
  obtain ⟨c, hc, rfl⟩ := List.mem_map.mp hunit
  exact ⟨c, rfl, hs c hc⟩

theorem spellsUnits_self {cs : List Char} (h : ∀ c ∈ cs, c ≠ '"' ∧ c ≠ '\\' ∧ 32 ≤ c.toNat) :
    SpellsUnits cs (cs.map .char) := by
  induction cs with
  | nil => exact .nil
  | cons c cs ih =>
    obtain ⟨hquote, hescape, hcontrol⟩ := h c List.mem_cons_self
    exact .plain hquote hescape hcontrol (ih fun d hd => h d (List.mem_cons_of_mem _ hd))

theorem spellsUnits_char {c : Char} (hc : 32 ≤ c.toNat) {cs : List Char} {units : List TextUnit}
    (hrest : SpellsUnits cs units) :
    SpellsUnits ((TextUnit.char c).write ++ cs) (.char c :: units) := by
  simp only [TextUnit.write]
  split
  case h_8 hquote hescape _ _ _ _ _ =>
    rw [if_neg (by omega)]
    exact .plain hquote hescape hc hrest
  all_goals exact .short rfl hrest

theorem spellsUnits_write {units : List TextUnit} (h : PlainUnits units) :
    SpellsUnits (units.flatMap TextUnit.write) units := by
  induction units with
  | nil => exact .nil
  | cons unit units ih =>
    obtain ⟨c, rfl, hc⟩ := h unit List.mem_cons_self
    exact spellsUnits_char hc (ih fun unit hunit => h unit (List.mem_cons_of_mem _ hunit))

theorem spellsItems_write {item : Json} {items : List Json}
    (h : ∀ j ∈ item :: items, Spells j.write j) :
    SpellsItems (item.write ++ writeItems items) (item :: items) := by
  have hitem := h item List.mem_cons_self
  induction items generalizing item with
  | nil => simpa [writeItems] using SpellsItems.last blank_nil hitem blank_nil
  | cons next items ih =>
    have hrest := ih (fun j hj => h j (List.mem_cons_of_mem _ hj))
      (h next (List.mem_cons_of_mem _ List.mem_cons_self))
    simpa [writeItems] using SpellsItems.more blank_nil hitem blank_nil hrest

theorem spellsMembers_write {name : List TextUnit} {value : Json}
    {members : List (List TextUnit × Json)}
    (hnames : ∀ m ∈ (name, value) :: members, PlainUnits m.1)
    (h : ∀ m ∈ (name, value) :: members, Spells m.2.write m.2) :
    SpellsMembers (quote name ++ ':' :: (value.write ++ writeMembers members))
      ((name, value) :: members) := by
  have hname := spellsUnits_write (hnames _ List.mem_cons_self)
  have hvalue := h _ List.mem_cons_self
  induction members generalizing name value with
  | nil =>
    simpa [writeMembers, quote] using
      SpellsMembers.last blank_nil hname blank_nil blank_nil hvalue blank_nil
  | cons next members ih =>
    obtain ⟨nextName, nextValue⟩ := next
    have hrest := ih (fun m hm => hnames m (List.mem_cons_of_mem _ hm))
      (fun m hm => h m (List.mem_cons_of_mem _ hm))
      (spellsUnits_write (hnames _ (List.mem_cons_of_mem _ List.mem_cons_self)))
      (h _ (List.mem_cons_of_mem _ List.mem_cons_self))
    simpa [writeMembers, quote] using
      SpellsMembers.more blank_nil hname blank_nil blank_nil hvalue blank_nil hrest

theorem Plain.spells_write {j : Json} (h : Plain j) : Spells j.write j := by
  induction h with
  | null => exact .null
  | bool value =>
    cases value with
    | true => exact .boolTrue
    | false => exact .boolFalse
  | integer n => exact .integer n
  | string hunits => exact .string (spellsUnits_write hunits)
  | @array items _ ih =>
    cases items with
    | nil => exact .emptyArray blank_nil
    | cons item items => exact .array (spellsItems_write ih)
  | @object members hnames _ ih =>
    cases members with
    | nil => exact .emptyObject blank_nil
    | cons m members => exact .object (spellsMembers_write hnames ih)

theorem Plain.spelledBy_compact {j : Json} (h : Plain j) : SpelledBy j j.compact :=
  ⟨[], j.write, [], blank_nil, h.spells_write, blank_nil, by simp [compact]⟩

end KernelDispatch.Json
