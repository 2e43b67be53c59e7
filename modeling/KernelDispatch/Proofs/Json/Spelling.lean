import KernelDispatch.Proofs.Json.Numbers

/-!
# What spells a document

A text spells a document by the grammar of JSON: blanks stand around values and punctuation, a
string is a sequence of plain characters and escapes, and the items of an array or the members of an
object are separated by commas. The grammar is a relation between characters and documents, apart
from any reader. The reader gives for every text the document that the text spells, and the compact
form of a document spells it.
-/

namespace KernelDispatch.Json

/-- Characters that may stand around values and punctuation. -/
def Blank (cs : List Char) : Prop := ∀ c ∈ cs, isBlank c = true

/-- The characters between the quotes of a string, and the units that they stand for. -/
inductive SpellsUnits : List Char → List TextUnit → Prop
  | nil : SpellsUnits [] []
  | plain {c : Char} {cs units} (hquote : c ≠ '"') (hescape : c ≠ '\\') (hcontrol : 32 ≤ c.toNat)
      (hrest : SpellsUnits cs units) : SpellsUnits (c :: cs) (.char c :: units)
  | short {e c : Char} {cs units} (hshort : shortEscape? e = some c)
      (hrest : SpellsUnits cs units) : SpellsUnits ('\\' :: e :: cs) (.char c :: units)
  | numbered {a b c d : Char} {unit : Nat} {cs units} (hunit : unit? a b c d = some unit)
      (hrest : SpellsUnits cs units) :
      SpellsUnits ('\\' :: 'u' :: a :: b :: c :: d :: cs) (.escaped unit :: units)

mutual

/-- The characters of a value, without blanks around them. -/
inductive Spells : List Char → Json → Prop
  | null : Spells ['n', 'u', 'l', 'l'] .null
  | boolTrue : Spells ['t', 'r', 'u', 'e'] (.bool true)
  | boolFalse : Spells ['f', 'a', 'l', 's', 'e'] (.bool false)
  | integer (n : Int) : Spells (integerText n) (.integer n)
  | real {negative : Bool} {whole fraction exponent : List Char} (hwhole : IsWhole whole)
      (hfraction : IsFraction fraction) (hexponent : IsExponent exponent)
      (hreal : fraction ≠ [] ∨ exponent ≠ [] ∨ (negative = true ∧ whole = ['0'])) :
      Spells ((if negative then ['-'] else []) ++ whole ++ fraction ++ exponent)
        (.real (String.ofList ((if negative then ['-'] else []) ++ whole ++ fraction ++ exponent)))
  | string {cs units} (hunits : SpellsUnits cs units) :
      Spells ('"' :: (cs ++ ['"'])) (.string units)
  | emptyArray {b} (hb : Blank b) : Spells ('[' :: (b ++ [']'])) (.array [])
  | array {cs items} (hitems : SpellsItems cs items) : Spells ('[' :: cs) (.array items)
  | emptyObject {b} (hb : Blank b) : Spells ('\x7b' :: (b ++ ['\x7d'])) (.object [])
  | object {cs members} (hmembers : SpellsMembers cs members) :
      Spells ('\x7b' :: cs) (.object members)

/-- The characters after the opening bracket of an array that is not empty. -/
inductive SpellsItems : List Char → List Json → Prop
  | last {before v after : List Char} {j} (hbefore : Blank before) (hv : Spells v j)
      (hafter : Blank after) : SpellsItems (before ++ (v ++ (after ++ [']']))) [j]
  | more {before v after cs : List Char} {j items} (hbefore : Blank before) (hv : Spells v j)
      (hafter : Blank after) (hrest : SpellsItems cs items) :
      SpellsItems (before ++ (v ++ (after ++ ',' :: cs))) (j :: items)

/-- The characters after the opening brace of an object that is not empty. -/
inductive SpellsMembers : List Char → List (List TextUnit × Json) → Prop
  | last {start key colon before v after : List Char} {units j} (hstart : Blank start)
      (hkey : SpellsUnits key units) (hcolon : Blank colon) (hbefore : Blank before)
      (hv : Spells v j) (hafter : Blank after) :
      SpellsMembers (start ++ '"' :: (key ++ '"' ::
        (colon ++ ':' :: (before ++ (v ++ (after ++ ['\x7d'])))))) [(units, j)]
  | more {start key colon before v after cs : List Char} {units j members} (hstart : Blank start)
      (hkey : SpellsUnits key units) (hcolon : Blank colon) (hbefore : Blank before)
      (hv : Spells v j) (hafter : Blank after) (hrest : SpellsMembers cs members) :
      SpellsMembers
        (start ++ '"' :: (key ++ '"' :: (colon ++ ':' :: (before ++ (v ++ (after ++ ',' :: cs))))))
        ((units, j) :: members)

end

/-- A text that holds this document and nothing else. -/
def SpelledBy (j : Json) (text : String) : Prop :=
  ∃ before v after, Blank before ∧ Spells v j ∧ Blank after ∧ text.toList = before ++ (v ++ after)

section Blanks

variable {b rest : List Char}

theorem skipBlanks_append (hb : Blank b) (rest : List Char) :
    skipBlanks (b ++ rest) = skipBlanks rest :=
  List.dropWhile_append_of_pos hb

theorem skipBlanks_cons {c : Char} (hc : isBlank c = false) (rest : List Char) :
    skipBlanks (c :: rest) = c :: rest := by
  simp [skipBlanks, hc]

theorem skipBlanks_append_cons (hb : Blank b) {c : Char} (hc : isBlank c = false)
    (rest : List Char) : skipBlanks (b ++ c :: rest) = c :: rest := by
  rw [skipBlanks_append hb, skipBlanks_cons hc]

@[simp] theorem skipBlanks_skipBlanks (cs : List Char) :
    skipBlanks (skipBlanks cs) = skipBlanks cs :=
  List.dropWhile_idempotent _ cs

theorem readValue_skipBlanks (fuel : Nat) (cs : List Char) :
    readValue fuel (skipBlanks cs) = readValue fuel cs := by
  cases fuel with
  | zero => rw [readValue, readValue]
  | succ fuel => rw [readValue, readValue, skipBlanks_skipBlanks]

theorem readValue_append (fuel : Nat) (hb : Blank b) (rest : List Char) :
    readValue fuel (b ++ rest) = readValue fuel rest := by
  rw [← readValue_skipBlanks, skipBlanks_append hb, readValue_skipBlanks]

theorem readItems_skipBlanks (fuel : Nat) (cs : List Char) :
    readItems fuel (skipBlanks cs) = readItems fuel cs := by
  cases fuel with
  | zero => rw [readItems, readItems]
  | succ fuel => rw [readItems, readItems, readValue_skipBlanks]

theorem readMembers_skipBlanks (fuel : Nat) (cs : List Char) :
    readMembers fuel (skipBlanks cs) = readMembers fuel cs := by
  cases fuel with
  | zero => rw [readMembers, readMembers]
  | succ fuel => rw [readMembers, readMembers, skipBlanks_skipBlanks]

theorem endsNumber_append (hb : Blank b) (hrest : EndsNumber rest) : EndsNumber (b ++ rest) := by
  cases b with
  | nil => exact hrest
  | cons c b =>
    intro d hd
    obtain rfl : c = d := by simpa using hd
    have hc := hb c List.mem_cons_self
    simp only [isBlank, Bool.or_eq_true, beq_iff_eq] at hc
    rcases hc with ((rfl | rfl) | rfl) | rfl <;> decide

theorem endsNumber_nil : EndsNumber [] := fun _ hc => by cases hc

theorem endsNumber_cons {c : Char} (hc : c = ',' ∨ c = ']' ∨ c = '\x7d') (rest : List Char) :
    EndsNumber (c :: rest) := by
  intro d hd
  obtain rfl : c = d := by simpa using hd
  rcases hc with rfl | rfl | rfl <;> decide

end Blanks

theorem readString_append {cs : List Char} {units : List TextUnit} (h : SpellsUnits cs units)
    (rest : List Char) : readString (cs ++ '"' :: rest) = some (units, rest) := by
  induction h with
  | nil => rw [List.nil_append, readString]
  | @plain c cs units hquote hescape hcontrol _ ih =>
    rw [List.cons_append, readString, if_neg (by omega), ih]
    · rfl
    all_goals simp [hquote, hescape]
  | @short e c cs units hshort _ ih =>
    -- `u` is no short escape, so that the numbered form does not apply here.
    rw [List.cons_append, List.cons_append, readString, hshort, ih]
    rintro _ _ _ _ _ rfl
    cases hshort
  | @numbered a b c d unit cs units hunit _ ih =>
    simp only [List.cons_append, readString, hunit, ih]

/-- The reader gives this document for these characters, whatever follows that does not belong to
them. -/
def Reads (v : List Char) (j : Json) : Prop :=
  ∀ fuel rest, 2 * v.length ≤ fuel → EndsNumber rest → readValue fuel (v ++ rest) = some (j, rest)

/-- The reader gives these items for the rest of an array. -/
def ReadsItems (cs : List Char) (items : List Json) : Prop :=
  ∀ fuel rest, 2 * cs.length ≤ fuel → readItems fuel (cs ++ rest) = some (items, rest)

/-- The reader gives these members for the rest of an object. -/
def ReadsMembers (cs : List Char) (members : List (List TextUnit × Json)) : Prop :=
  ∀ fuel rest, 2 * cs.length ≤ fuel → readMembers fuel (cs ++ rest) = some (members, rest)

section Values

variable {v cs : List Char} {j : Json} {items : List Json} {members : List (List TextUnit × Json)}

theorem not_isBlank_of_isDigit {c : Char} (hc : c.isDigit = true) : isBlank c = false := by
  rw [Bool.eq_false_iff]
  intro hblank
  simp only [isBlank, Bool.or_eq_true, beq_iff_eq] at hblank
  rcases hblank with ((rfl | rfl) | rfl) | rfl <;> cases hc

theorem readValue_number {c : Char} (hc : c = '-' ∨ c.isDigit = true) (fuel : Nat)
    (rest : List Char) : readValue (fuel + 1) (c :: rest) = readNumber (c :: rest) := by
  have hblank : isBlank c = false := by
    rcases hc with rfl | hc
    · rfl
    · exact not_isBlank_of_isDigit hc
  rw [readValue, skipBlanks_cons hblank]
  split
  case h_7 => rfl
  all_goals
    rename_i heq
    cases heq
    rcases hc with hc | hc <;> cases hc

theorem exists_fuel {n fuel : Nat} (hn : 0 < n) (hfuel : 2 * n ≤ fuel) :
    ∃ less, fuel = less + 1 ∧ 2 * n ≤ less + 1 :=
  ⟨fuel - 1, by omega, by omega⟩

theorem reads_word {c : Char} (hread : ∀ fuel rest,
    readValue (fuel + 1) (c :: cs ++ rest) = some (j, rest)) : Reads (c :: cs) j := by
  intro fuel rest hfuel _
  obtain ⟨fuel, rfl, -⟩ := exists_fuel (by simp) hfuel
  exact hread fuel rest

theorem reads_integer (n : Int) : Reads (integerText n) (.integer n) := by
  intro fuel rest hfuel hrest
  obtain ⟨c, ds, hhead, hc⟩ := integerText_head n
  have hread := readNumber_integerText n hrest
  rw [hhead] at hfuel hread ⊢
  obtain ⟨fuel, rfl, -⟩ := exists_fuel (by simp) hfuel
  exact (readValue_number hc fuel _).trans hread

theorem reads_real {negative : Bool} {whole fraction exponent : List Char} (hwhole : IsWhole whole)
    (hfraction : IsFraction fraction) (hexponent : IsExponent exponent)
    (hreal : fraction ≠ [] ∨ exponent ≠ [] ∨ (negative = true ∧ whole = ['0'])) :
    Reads ((if negative then ['-'] else []) ++ whole ++ fraction ++ exponent)
      (.real (String.ofList ((if negative then ['-'] else []) ++ whole ++ fraction ++
        exponent))) := by
  intro fuel rest hfuel hrest
  have hread := readUnsigned_append negative hwhole hfraction hexponent hrest
  rw [if_neg] at hread
  · obtain ⟨d, ds, rfl, hd⟩ := hwhole.head
    cases negative with
    | true =>
      obtain ⟨fuel, rfl, -⟩ := exists_fuel (by simp) hfuel
      simp only [if_true, List.append_assoc, List.cons_append, List.nil_append] at hread ⊢
      rw [readValue_number (.inl rfl), readNumber, hread]
    | false =>
      obtain ⟨fuel, rfl, -⟩ := exists_fuel (by simp) hfuel
      have hnumber := readNumber_unsigned hwhole (fraction ++ (exponent ++ rest))
      simp only [Bool.false_eq_true, if_false, List.append_assoc, List.cons_append, List.nil_append]
        at hread hnumber ⊢
      rw [readValue_number (.inr hd), hnumber, hread]
  · rintro ⟨rfl, rfl, hzero⟩
    rcases hreal with h | h | ⟨hnegative, rfl⟩
    · exact h rfl
    · exact h rfl
    · exact hzero ⟨hnegative, rfl⟩

theorem reads_string {units : List TextUnit} (hunits : SpellsUnits cs units) :
    Reads ('"' :: (cs ++ ['"'])) (.string units) := by
  intro fuel rest hfuel _
  obtain ⟨fuel, rfl, -⟩ := exists_fuel (by simp) hfuel
  rw [List.cons_append, List.append_assoc, List.singleton_append, readValue, skipBlanks_cons rfl]
  simp only
  rw [readString_append hunits]
  rfl

theorem readValue_array (fuel : Nat) (cs : List Char) :
    readValue (fuel + 1) ('[' :: cs) =
      match skipBlanks cs with
      | ']' :: after => some (.array [], after)
      | start => (readItems fuel start).map fun (items, after) => (.array items, after) := by
  rw [readValue, skipBlanks_cons rfl]
  rfl

theorem readValue_object (fuel : Nat) (cs : List Char) :
    readValue (fuel + 1) ('\x7b' :: cs) =
      match skipBlanks cs with
      | '\x7d' :: after => some (.object [], after)
      | start => (readMembers fuel start).map fun (members, after) => (.object members, after) := by
  rw [readValue, skipBlanks_cons rfl]
  rfl

/-- Two brackets with blanks between them, which the reader skips before it finds the second. -/
theorem reads_brackets {opening closing : Char} {b : List Char} (hb : Blank b)
    (hclosing : isBlank closing = false)
    (hread : ∀ fuel cs rest, skipBlanks cs = closing :: rest →
      readValue (fuel + 1) (opening :: cs) = some (j, rest)) :
    Reads (opening :: (b ++ [closing])) j := by
  intro fuel rest hfuel _
  obtain ⟨fuel, rfl, -⟩ := exists_fuel (by simp) hfuel
  rw [List.cons_append, List.append_assoc, List.singleton_append]
  exact hread fuel _ rest (skipBlanks_append_cons hb hclosing rest)

theorem reads_emptyArray {b : List Char} (hb : Blank b) :
    Reads ('[' :: (b ++ [']'])) (.array []) :=
  reads_brackets hb rfl fun fuel cs rest h => by simp only [readValue_array, h]

theorem reads_emptyObject {b : List Char} (hb : Blank b) :
    Reads ('\x7b' :: (b ++ ['\x7d'])) (.object []) :=
  reads_brackets hb rfl fun fuel cs rest h => by simp only [readValue_object, h]

/-- A value starts with a character that is neither a blank nor a closing bracket. -/
theorem Spells.head (h : Spells v j) : ∃ c rest, v = c :: rest ∧ isBlank c = false ∧ c ≠ ']' := by
  have hdigit {d : Char} (hd : d.isDigit = true) : isBlank d = false ∧ d ≠ ']' :=
    ⟨not_isBlank_of_isDigit hd, by rintro rfl; cases hd⟩
  cases h with
  | integer n =>
    obtain ⟨c, ds, hhead, rfl | hc⟩ := integerText_head n
    · exact ⟨_, ds, hhead, rfl, by decide⟩
    · exact ⟨c, ds, hhead, hdigit hc⟩
  | @real negative whole fraction exponent hwhole =>
    obtain ⟨d, ds, rfl, hd⟩ := hwhole.head
    cases negative with
    | true => exact ⟨'-', _, rfl, rfl, by decide⟩
    | false => exact ⟨d, _, rfl, hdigit hd⟩
  | null | boolTrue | boolFalse | string | emptyArray | array | emptyObject | object =>
    exact ⟨_, _, rfl, rfl, by decide⟩

theorem SpellsItems.head (h : SpellsItems cs items) :
    ∃ b c rest, cs = b ++ c :: rest ∧ Blank b ∧ isBlank c = false ∧ c ≠ ']' := by
  cases h with
  | last hbefore hv _ =>
    obtain ⟨c, tail, rfl, hc, hopen⟩ := hv.head
    exact ⟨_, c, _, rfl, hbefore, hc, hopen⟩
  | more hbefore hv _ _ =>
    obtain ⟨c, tail, rfl, hc, hopen⟩ := hv.head
    exact ⟨_, c, _, rfl, hbefore, hc, hopen⟩

theorem SpellsMembers.head (h : SpellsMembers cs members) :
    ∃ b rest, cs = b ++ '"' :: rest ∧ Blank b := by
  cases h with
  | last hstart => exact ⟨_, _, rfl, hstart⟩
  | more hstart => exact ⟨_, _, rfl, hstart⟩

theorem reads_array (h : SpellsItems cs items) (hread : ReadsItems cs items) :
    Reads ('[' :: cs) (.array items) := by
  intro fuel rest hfuel _
  obtain ⟨fuel, rfl, hless⟩ := exists_fuel (by simp) hfuel
  have hitems : readItems fuel (skipBlanks (cs ++ rest)) = some (items, rest) := by
    rw [readItems_skipBlanks, hread fuel rest (by rw [List.length_cons] at hless; omega)]
  obtain ⟨b, c, tail, rfl, hb, hc, hopen⟩ := h.head
  rw [List.append_assoc, List.cons_append, skipBlanks_append_cons hb hc] at hitems
  rw [List.cons_append, readValue_array, List.append_assoc, List.cons_append,
    skipBlanks_append_cons hb hc]
  split
  · rename_i heq
    cases heq
    exact absurd rfl hopen
  · rw [hitems]
    rfl

theorem reads_object (h : SpellsMembers cs members) (hread : ReadsMembers cs members) :
    Reads ('\x7b' :: cs) (.object members) := by
  intro fuel rest hfuel _
  obtain ⟨fuel, rfl, hless⟩ := exists_fuel (by simp) hfuel
  have hmembers : readMembers fuel (skipBlanks (cs ++ rest)) = some (members, rest) := by
    rw [readMembers_skipBlanks, hread fuel rest (by rw [List.length_cons] at hless; omega)]
  obtain ⟨b, tail, rfl, hb⟩ := h.head
  rw [List.append_assoc, List.cons_append, skipBlanks_append_cons hb rfl] at hmembers
  rw [List.cons_append, readValue_object, List.append_assoc, List.cons_append,
    skipBlanks_append_cons hb rfl]
  split
  · rename_i heq
    cases heq
  · rw [hmembers]
    rfl

theorem readsItems_last {before after : List Char} (hbefore : Blank before) (hv : Reads v j)
    (hafter : Blank after) : ReadsItems (before ++ (v ++ (after ++ [']']))) [j] := by
  intro fuel rest hfuel
  obtain ⟨fuel, rfl, hless⟩ := exists_fuel (by simp) hfuel
  simp only [List.length_append, List.length_singleton] at hless
  have hvalue := hv fuel (after ++ ']' :: rest) (by omega)
    (endsNumber_append hafter (endsNumber_cons (by simp) rest))
  simp only [List.append_assoc, List.singleton_append]
  rw [readItems, readValue_append fuel hbefore, hvalue]
  simp only
  rw [skipBlanks_append_cons hafter rfl]
  rfl

theorem readsItems_more {before after : List Char} (hbefore : Blank before) (hv : Reads v j)
    (hafter : Blank after) (hrest : ReadsItems cs items) :
    ReadsItems (before ++ (v ++ (after ++ ',' :: cs))) (j :: items) := by
  intro fuel rest hfuel
  obtain ⟨fuel, rfl, hless⟩ := exists_fuel (by simp) hfuel
  simp only [List.length_append, List.length_cons] at hless
  have hvalue := hv fuel (after ++ ',' :: (cs ++ rest)) (by omega)
    (endsNumber_append hafter (endsNumber_cons (by simp) _))
  simp only [List.append_assoc, List.cons_append]
  rw [readItems, readValue_append fuel hbefore, hvalue]
  simp only
  rw [skipBlanks_append_cons hafter rfl]
  simp only
  rw [hrest fuel rest (by omega)]
  rfl

theorem readMembers_key {start key colon : List Char} {units : List TextUnit} (hstart : Blank start)
    (hkey : SpellsUnits key units) (hcolon : Blank colon) (fuel : Nat) (content : List Char) :
    readMembers (fuel + 1) (start ++ '"' :: (key ++ '"' :: (colon ++ ':' :: content))) =
      match readValue fuel content with
      | none => none
      | some (value, rest) =>
        match skipBlanks rest with
        | '\x7d' :: after => some ([(units, value)], after)
        | ',' :: next =>
          (readMembers fuel next).map fun (members, after) => ((units, value) :: members, after)
        | _ => none := by
  rw [readMembers, skipBlanks_append_cons hstart rfl]
  simp only
  rw [readString_append hkey]
  simp only
  rw [skipBlanks_append_cons hcolon rfl]
  rfl

theorem readsMembers_last {start key colon before after : List Char} {units : List TextUnit}
    (hstart : Blank start) (hkey : SpellsUnits key units) (hcolon : Blank colon)
    (hbefore : Blank before) (hv : Reads v j) (hafter : Blank after) :
    ReadsMembers
      (start ++ '"' :: (key ++ '"' :: (colon ++ ':' :: (before ++ (v ++ (after ++ ['\x7d']))))))
      [(units, j)] := by
  intro fuel rest hfuel
  obtain ⟨fuel, rfl, hless⟩ := exists_fuel (by simp) hfuel
  simp only [List.length_append, List.length_cons] at hless
  have hvalue := hv fuel (after ++ '\x7d' :: rest) (by omega)
    (endsNumber_append hafter (endsNumber_cons (by simp) rest))
  simp only [List.append_assoc, List.cons_append, List.nil_append]
  rw [readMembers_key hstart hkey hcolon, readValue_append fuel hbefore, hvalue]
  simp only
  rw [skipBlanks_append_cons hafter rfl]
  rfl

theorem readsMembers_more {start key colon before after : List Char} {units : List TextUnit}
    (hstart : Blank start) (hkey : SpellsUnits key units) (hcolon : Blank colon)
    (hbefore : Blank before) (hv : Reads v j) (hafter : Blank after)
    (hrest : ReadsMembers cs members) : ReadsMembers
      (start ++ '"' :: (key ++ '"' :: (colon ++ ':' :: (before ++ (v ++ (after ++ ',' :: cs))))))
      ((units, j) :: members) := by
  intro fuel rest hfuel
  obtain ⟨fuel, rfl, hless⟩ := exists_fuel (by simp) hfuel
  simp only [List.length_append, List.length_cons] at hless
  have hvalue := hv fuel (after ++ ',' :: (cs ++ rest)) (by omega)
    (endsNumber_append hafter (endsNumber_cons (by simp) _))
  simp only [List.append_assoc, List.cons_append]
  rw [readMembers_key hstart hkey hcolon, readValue_append fuel hbefore, hvalue]
  simp only
  rw [skipBlanks_append_cons hafter rfl]
  simp only
  rw [hrest fuel rest (by omega)]
  rfl

mutual

theorem Spells.reads {v j} : Spells v j → Reads v j
  | .null => reads_word fun _ _ => rfl
  | .boolTrue => reads_word fun _ _ => rfl
  | .boolFalse => reads_word fun _ _ => rfl
  | .integer n => reads_integer n
  | .real hwhole hfraction hexponent hreal => reads_real hwhole hfraction hexponent hreal
  | .string hunits => reads_string hunits
  | .emptyArray hb => reads_emptyArray hb
  | .array hitems => reads_array hitems hitems.reads
  | .emptyObject hb => reads_emptyObject hb
  | .object hmembers => reads_object hmembers hmembers.reads

theorem SpellsItems.reads {cs items} : SpellsItems cs items → ReadsItems cs items
  | .last hbefore hv hafter => readsItems_last hbefore hv.reads hafter
  | .more hbefore hv hafter hrest => readsItems_more hbefore hv.reads hafter hrest.reads

theorem SpellsMembers.reads {cs members} : SpellsMembers cs members → ReadsMembers cs members
  | .last hstart hkey hcolon hbefore hv hafter =>
    readsMembers_last hstart hkey hcolon hbefore hv.reads hafter
  | .more hstart hkey hcolon hbefore hv hafter hrest =>
    readsMembers_more hstart hkey hcolon hbefore hv.reads hafter hrest.reads

end

theorem parse?_of_spelledBy {text : String} (h : SpelledBy j text) : parse? text = some j := by
  obtain ⟨before, v, after, hbefore, hv, hafter, htext⟩ := h
  have hread : readValue (2 * text.toList.length + 2) (v ++ after) = some (j, after) := by
    refine hv.reads _ after ?_ (by simpa using endsNumber_append hafter endsNumber_nil)
    rw [htext]
    simp only [List.length_append]
    omega
  have hend : skipBlanks after = [] := by
    rw [← List.append_nil after, skipBlanks_append hafter]
    rfl
  unfold parse?
  simp only
  rw [htext, readValue_append _ hbefore, ← htext, hread]
  simp only
  rw [hend]
  rfl

end Values

end KernelDispatch.Json
