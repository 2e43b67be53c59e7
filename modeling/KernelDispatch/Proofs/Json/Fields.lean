import KernelDispatch.Config.Json
import KernelDispatch.Proofs.Json.Compact

/-!
# Fields of an object

A field is looked up among all members of its name: it is missing, or it is there once, or it is
repeated and then refused. Members under other names do not matter, wherever they stand.
-/

namespace KernelDispatch.Json

/-- The members that have one of these names, in the order of the object. -/
def known (names : List String) (members : List (String × Json)) : List (String × Json) :=
  members.filter (·.1 ∈ names)

/-- A text of one object, with these members under their resolved names. -/
def HasMembers (text : String) (named : List (String × Json)) : Prop :=
  ∃ members, SpelledBy (.object members) text ∧ named? members = some named

/-- What a number field with these bounds is not: null, an integer outside them, or a number with a
fraction or an exponent. -/
inductive RefusedNumber (low high : Int) : Json → Prop
  | null : RefusedNumber low high .null
  | integer {n : Int} (hn : n < low ∨ high < n) : RefusedNumber low high (.integer n)
  | real (literal : String) : RefusedNumber low high (.real literal)

section Lookup

variable {name : String} {value : Json} {members : List (String × Json)}

theorem field?_cons_self (value : Json) (hname : name ∉ members.map Prod.fst) :
    field? name ((name, value) :: members) = some (some value) := by
  have hnone : members.filter (·.1 == name) = [] := by
    rw [List.filter_eq_nil_iff]
    intro m hm heq
    exact hname (List.mem_map.mpr ⟨m, hm, by simpa using heq⟩)
  simp [field?, hnone]

theorem field?_cons_of_ne {m : String × Json} (hm : m.1 ≠ name) :
    field? name (m :: members) = field? name members := by
  simp [field?, hm]

theorem field?_known {names : List String} (hname : name ∈ names) :
    field? name (known names members) = field? name members := by
  have hfilter : (known names members).filter (·.1 == name) = members.filter (·.1 == name) := by
    rw [known, List.filter_filter]
    refine List.filter_congr fun m _ => ?_
    by_cases hm : m.1 = name <;> simp [hm, hname]
  rw [field?, hfilter, field?]

theorem field?_eq_some_iff : field? name members = some (some value) ↔
    known [name] members = [(name, value)] := by
  constructor
  · intro h
    have hknown : known [name] members = members.filter (·.1 == name) :=
      List.filter_congr fun m _ => by rw [Bool.eq_iff_iff]; simp
    unfold field? at h
    split at h
    · cases h
    · rename_i key _ hfilter
      cases h
      have hkey : (key, value) ∈ members.filter (·.1 == name) := by simp [hfilter]
      obtain rfl : key = name := by simpa using (List.mem_filter.mp hkey).2
      rw [hknown, hfilter]
    · cases h
  · intro h
    rw [← field?_known List.mem_cons_self, h]
    simp [field?]

theorem length_filter_name : (members.filter (·.1 == name)).length =
    (members.map Prod.fst).count name := by
  rw [List.count, List.countP_map, List.countP_eq_length_filter]
  rfl

theorem field?_of_count (hcount : (members.map Prod.fst).count name ≠ 1) :
    field? name members = none ∨ field? name members = some none := by
  rw [← length_filter_name] at hcount
  unfold field?
  split
  · exact .inr rfl
  · rename_i heq
    exact absurd (by rw [heq]; rfl) hcount
  · exact .inl rfl

theorem field?_of_repeated (hcount : 1 < (members.map Prod.fst).count name) :
    field? name members = none := by
  rw [← length_filter_name] at hcount
  unfold field?
  split
  · rename_i heq
    rw [heq] at hcount
    cases hcount
  · rename_i heq
    rw [heq] at hcount
    simp at hcount
  · rfl

theorem field?_of_mem (hm : (name, value) ∈ members) :
    field? name members = none ∨ field? name members = some (some value) := by
  have hmem : (name, value) ∈ members.filter (·.1 == name) := List.mem_filter.mpr ⟨hm, by simp⟩
  unfold field?
  split
  · rename_i heq
    rw [heq] at hmem
    cases hmem
  · rename_i heq
    rw [heq, List.mem_singleton] at hmem
    cases hmem
    exact .inr rfl
  · exact .inl rfl

end Lookup

section Readers

variable {α : Type} {name : String} {read : Json → Option α} {absent : α} {value : Json}
  {members : List (String × Json)}

theorem optional?_of_field (h : field? name members = some (some value)) :
    optional? name read absent members = read value := by
  rw [optional?, h]
  rfl

theorem optional?_eq_none (hm : (name, value) ∈ members) (hread : read value = none) :
    optional? name read absent members = none := by
  rcases field?_of_mem hm with h | h
  · rw [optional?, h]
    rfl
  · rw [optional?_of_field h]
    exact hread

theorem optional?_of_repeated (hcount : 1 < (members.map Prod.fst).count name) :
    optional? name read absent members = none := by
  rw [optional?, field?_of_repeated hcount]
  rfl

theorem required?_of_field (h : field? name members = some (some value)) :
    required? name read members = read value := by
  rw [required?, h]
  rfl

theorem required?_eq_none (hm : (name, value) ∈ members) (hread : read value = none) :
    required? name read members = none := by
  rcases field?_of_mem hm with h | h
  · rw [required?, h]
    rfl
  · rw [required?_of_field h]
    exact hread

theorem required?_of_count (hcount : (members.map Prod.fst).count name ≠ 1) :
    required? name read members = none := by
  rcases field?_of_count hcount with h | h
  · rw [required?, h]
    rfl
  · rw [required?, h]
    rfl

end Readers

theorem named?_ofMembers (members : List (String × Json)) :
    named? (members.map fun m => (m.1.toList.map .char, m.2)) = some members := by
  induction members with
  | nil => rfl
  | cons m members ih =>
    rw [named?] at ih
    simp [named?, ih]

theorem Plain.ofMembers {members : List (String × Json)}
    (hnames : ∀ m ∈ members, ∀ c ∈ m.1.toList, 32 ≤ c.toNat) (hvalues : ∀ m ∈ members, Plain m.2) :
    Plain (.ofMembers members) := by
  refine .object (fun m hm => ?_) fun m hm => ?_
  · obtain ⟨member, hmember, rfl⟩ := List.mem_map.mp hm
    exact plainUnits_text (hnames member hmember)
  · obtain ⟨member, hmember, rfl⟩ := List.mem_map.mp hm
    exact hvalues member hmember

theorem hasMembers_compact {members : List (String × Json)} (h : Plain (.ofMembers members)) :
    HasMembers (Json.ofMembers members).compact members :=
  ⟨_, h.spelledBy_compact, named?_ofMembers members⟩

section Numbers

theorem integerIn?_refused {low high : Int} {j : Json} (h : j.RefusedNumber low high) :
    j.integerIn? low high = none := by
  cases h with
  | null => rfl
  | real literal => rfl
  | integer hn => rw [integerIn?, if_neg (by omega)]

theorem unsigned32?_refused {j : Json} (h : j.RefusedNumber 0 (2 ^ 32 - 1)) :
    j.unsigned32? = none := by
  have hhigh : (UInt32.size : Int) - 1 = 2 ^ 32 - 1 := rfl
  rw [unsigned32?, hhigh, integerIn?_refused h]
  rfl

theorem signed64?_refused {j : Json} (h : j.RefusedNumber (-2 ^ 63) (2 ^ 63 - 1)) :
    j.signed64? = none := by
  have hlow : Int64.minValue.toInt = -2 ^ 63 := rfl
  have hhigh : Int64.maxValue.toInt = 2 ^ 63 - 1 := rfl
  rw [signed64?, hlow, hhigh, integerIn?_refused h]
  rfl

theorem unsigned32?_toNat (n : UInt32) : unsigned32? (.integer n.toNat) = some n := by
  have hbound : (n.toNat : Int) ≤ UInt32.size - 1 := by
    have := n.toNat_lt
    simp only [UInt32.size]
    omega
  rw [unsigned32?, integerIn?, if_pos ⟨by omega, hbound⟩]
  simp

theorem signed64?_toInt (n : BitVec 64) : signed64? (.integer n.toInt) = some n := by
  have hlow : Int64.minValue.toInt ≤ n.toInt := BitVec.le_toInt n
  have hhigh : n.toInt ≤ Int64.maxValue.toInt := by
    have := BitVec.toInt_lt (x := n)
    exact Int.le_sub_one_of_lt this
  rw [signed64?, integerIn?, if_pos ⟨hlow, hhigh⟩]
  simp

end Numbers

end KernelDispatch.Json
