import KernelDispatch.Json.Parser
import KernelDispatch.Json.Printer
import Mathlib

/-!
# Numbers in JSON

A number is a sign, a whole part without superfluous zeros, and perhaps a fraction and an exponent.
It is read up to the first character that cannot belong to it. A number of none but a whole part is
an integer, and every integer is read back from its decimal digits.
-/

namespace KernelDispatch.Json

def Digits (ds : List Char) : Prop := ∀ d ∈ ds, d.isDigit = true

/-- A zero, or digits that do not start with one. -/
def IsWhole (ds : List Char) : Prop := ds = ['0'] ∨ ∃ d rest, ds = d :: rest ∧ d ≠ '0' ∧ Digits ds

def IsFraction (cs : List Char) : Prop := cs = [] ∨ ∃ ds, ds ≠ [] ∧ Digits ds ∧ cs = '.' :: ds

/-- Nothing, or a letter with perhaps a sign and digits after it. -/
def IsExponent (cs : List Char) : Prop :=
  cs = [] ∨ ∃ e sign ds, (e = 'e' ∨ e = 'E') ∧ (sign = [] ∨ sign = ['+'] ∨ sign = ['-']) ∧ ds ≠ [] ∧
    Digits ds ∧ cs = e :: (sign ++ ds)

/-- What is left behind a number: it starts with nothing that would belong to the number. -/
def EndsNumber (rest : List Char) : Prop :=
  ∀ c ∈ rest.head?, c.isDigit = false ∧ c ≠ '.' ∧ c ≠ 'e' ∧ c ≠ 'E'

section Reading

variable {ds whole fraction exponent rest : List Char}

theorem splitDigits_append (hds : Digits ds) (hrest : ∀ c ∈ rest.head?, c.isDigit = false) :
    splitDigits (ds ++ rest) = (ds, rest) := by
  have hstop : rest.takeWhile Char.isDigit = [] ∧ rest.dropWhile Char.isDigit = rest := by
    cases rest with
    | nil => exact ⟨rfl, rfl⟩
    | cons c rest =>
      have hc := hrest c rfl
      simp [hc]
  rw [splitDigits, List.span_eq_takeWhile_dropWhile, List.takeWhile_append_of_pos hds,
    List.dropWhile_append_of_pos hds, hstop.1, hstop.2, List.append_nil]

theorem readWhole_append (hwhole : IsWhole whole) (hrest : ∀ c ∈ rest.head?, c.isDigit = false) :
    readWhole (whole ++ rest) = some (whole, rest) := by
  unfold readWhole
  rcases hwhole with rfl | ⟨d, others, rfl, hd, hdigits⟩
  · have hsplit : splitDigits (['0'] ++ rest) = (['0'], rest) :=
      splitDigits_append (by simp [Digits]) hrest
    rw [hsplit]
    rfl
  · rw [splitDigits_append hdigits hrest]
    split
    · rename_i heq
      cases heq
    · rename_i heq
      cases heq
      exact absurd rfl hd
    · rename_i heq
      cases heq
      exact absurd rfl hd
    · rename_i heq
      cases heq
      rfl

theorem readFraction_append (hfraction : IsFraction fraction)
    (hrest : ∀ c ∈ rest.head?, c.isDigit = false ∧ c ≠ '.') :
    readFraction (fraction ++ rest) = some (fraction, rest) := by
  rcases hfraction with rfl | ⟨ds, hsome, hdigits, rfl⟩
  · unfold readFraction
    split
    · rename_i cs heq
      have hpoint := hrest '.' (by rw [← List.nil_append rest, heq]; rfl)
      exact absurd rfl hpoint.2
    · rfl
  · rw [List.cons_append, readFraction, splitDigits_append hdigits fun c hc => (hrest c hc).1]
    split
    · rename_i heq
      cases heq
      exact absurd rfl hsome
    · rename_i heq
      cases heq
      rfl

theorem splitSign_append {sign : List Char} (hsign : sign = [] ∨ sign = ['+'] ∨ sign = ['-'])
    (hsome : ds ≠ []) (hdigits : Digits ds) :
    splitSign (sign ++ (ds ++ rest)) = (sign, ds ++ rest) := by
  rcases hsign with rfl | rfl | rfl
  · obtain ⟨d, others, rfl⟩ := List.exists_cons_of_ne_nil hsome
    have hd := hdigits d List.mem_cons_self
    rw [List.nil_append, List.cons_append]
    unfold splitSign
    split
    · rename_i heq
      cases heq
      cases hd
    · rename_i heq
      cases heq
      cases hd
    · rfl
  · rfl
  · rfl

theorem IsExponent.head_append (hexponent : IsExponent exponent) (hrest : EndsNumber rest) :
    ∀ c ∈ (exponent ++ rest).head?, c.isDigit = false ∧ c ≠ '.' := by
  rcases hexponent with rfl | ⟨e, sign, ds, he, -, -, -, rfl⟩
  · exact fun c hc => ⟨(hrest c hc).1, (hrest c hc).2.1⟩
  · intro c hc
    obtain rfl : e = c := by simpa using hc
    rcases he with rfl | rfl <;> decide

theorem IsFraction.head_append (hfraction : IsFraction fraction)
    (hrest : ∀ c ∈ rest.head?, c.isDigit = false ∧ c ≠ '.') :
    ∀ c ∈ (fraction ++ rest).head?, c.isDigit = false := by
  rcases hfraction with rfl | ⟨ds, -, -, rfl⟩
  · exact fun c hc => (hrest c hc).1
  · intro c hc
    obtain rfl : '.' = c := by simpa using hc
    rfl

theorem IsWhole.head (hwhole : IsWhole whole) : ∃ d ds, whole = d :: ds ∧ d.isDigit = true := by
  rcases hwhole with rfl | ⟨d, ds, rfl, -, hdigits⟩
  · exact ⟨'0', [], rfl, rfl⟩
  · exact ⟨d, ds, rfl, hdigits d List.mem_cons_self⟩

/-- Without a minus sign in front a number is read as it stands. -/
theorem readNumber_unsigned (hwhole : IsWhole whole) (rest : List Char) :
    readNumber (whole ++ rest) = readUnsigned false (whole ++ rest) := by
  obtain ⟨d, ds, rfl, hd⟩ := hwhole.head
  rw [List.cons_append]
  unfold readNumber
  split
  · rename_i heq
    cases heq
    cases hd
  · rfl

theorem readExponent_append (hexponent : IsExponent exponent) (hrest : EndsNumber rest) :
    readExponent (exponent ++ rest) = some (exponent, rest) := by
  rcases hexponent with rfl | ⟨e, sign, ds, he, hsign, hsome, hdigits, rfl⟩
  · cases rest with
    | nil => rfl
    | cons c rest =>
      obtain ⟨-, -, hlower, hupper⟩ := hrest c rfl
      rw [List.nil_append, readExponent, if_neg (by simp [hlower, hupper])]
  · rw [List.cons_append, List.append_assoc, readExponent, if_pos he,
      splitSign_append hsign hsome hdigits]
    simp only
    rw [splitDigits_append hdigits fun c hc => (hrest c hc).1]
    split
    · rename_i heq
      cases heq
      exact absurd rfl hsome
    · rename_i heq
      cases heq
      rfl

/-- A number after its sign: it is an integer if it has neither fraction nor exponent, but for the
negative zero. -/
theorem readUnsigned_append (negative : Bool) (hwhole : IsWhole whole)
    (hfraction : IsFraction fraction) (hexponent : IsExponent exponent) (hrest : EndsNumber rest) :
    readUnsigned negative (whole ++ (fraction ++ (exponent ++ rest))) =
      some (if fraction = [] ∧ exponent = [] ∧ ¬(negative = true ∧ digitsValue whole = 0) then
          .integer (if negative then -digitsValue whole else digitsValue whole)
        else .real (String.ofList ((if negative then ['-'] else []) ++ whole ++ fraction ++
          exponent)),
        rest) := by
  have hafterFraction := hexponent.head_append hrest
  have hafterWhole := hfraction.head_append hafterFraction
  simp only [readUnsigned, readWhole_append hwhole hafterWhole,
    readFraction_append hfraction hafterFraction, readExponent_append hexponent hrest,
    Option.bind_eq_bind, Option.bind_some, Option.pure_def]
  by_cases hinteger : fraction = [] ∧ exponent = [] ∧ ¬(negative = true ∧ digitsValue whole = 0)
  · rw [if_pos hinteger, if_pos (by cases negative <;> simpa [and_assoc] using hinteger)]
  · rw [if_neg hinteger, if_neg (by cases negative <;> simpa [and_assoc] using hinteger)]

end Reading

section Integers

theorem digitsValue_toDigits (n : Nat) : digitsValue (Nat.toDigits 10 n) = n := by
  have hvalue : digitsValue (Nat.toDigits 10 n) = Nat.ofDigitChars 10 (Nat.toDigits 10 n) 0 := by
    simp only [digitsValue, Nat.ofDigitChars, Nat.mul_comm 10]
    rfl
  rw [hvalue, Nat.ofDigitChars_ten_toDigits]

theorem digits_toDigits (n : Nat) : Digits (Nat.toDigits 10 n) := fun _ hd =>
  Nat.isDigit_of_mem_toDigits (by decide) (by decide) hd

theorem toDigits_head_ne_zero : ∀ {n : Nat}, 0 < n → ∀ d ∈ (Nat.toDigits 10 n).head?, d ≠ '0' := by
  intro n
  induction n using Nat.strong_induction_on with
  | h n ih =>
    intro hpos d hd
    by_cases hlt : n < 10
    · rw [Nat.toDigits_of_lt_base hlt] at hd
      obtain rfl : n.digitChar = d := by simpa using hd
      interval_cases n <;> decide
    · rw [Nat.toDigits_of_base_le (by decide) (by omega),
        List.head?_append_of_ne_nil _ Nat.toDigits_ne_nil] at hd
      exact ih (n / 10) (by omega) (by omega) d hd

theorem isWhole_toDigits (n : Nat) : IsWhole (Nat.toDigits 10 n) := by
  rcases Nat.eq_zero_or_pos n with rfl | hpos
  · exact .inl rfl
  · obtain ⟨d, ds, hds⟩ := List.exists_cons_of_ne_nil (Nat.toDigits_ne_nil (n := n) (b := 10))
    refine .inr ⟨d, ds, hds, toDigits_head_ne_zero hpos d (by rw [hds]; rfl), ?_⟩
    exact hds ▸ digits_toDigits n

theorem integerText_head (n : Int) : ∃ c ds, integerText n = c :: ds ∧
    (c = '-' ∨ c.isDigit = true) := by
  cases n with
  | ofNat n =>
    obtain ⟨d, ds, hds, hd⟩ := (isWhole_toDigits n).head
    exact ⟨d, ds, hds, .inr hd⟩
  | negSucc n => exact ⟨'-', _, rfl, .inl rfl⟩

theorem readNumber_integerText (n : Int) {rest : List Char} (hrest : EndsNumber rest) :
    readNumber (integerText n ++ rest) = some (.integer n, rest) := by
  cases n with
  | ofNat n =>
    have hread := readUnsigned_append false (isWhole_toDigits n) (.inl rfl) (.inl rfl) hrest
    rw [integerText, readNumber_unsigned (isWhole_toDigits n) rest]
    simpa [digitsValue_toDigits] using hread
  | negSucc n =>
    have hread := readUnsigned_append true (isWhole_toDigits (n + 1)) (.inl rfl) (.inl rfl) hrest
    rw [integerText, List.cons_append, readNumber]
    simpa [digitsValue_toDigits, Int.negSucc_eq] using hread

end Integers

end KernelDispatch.Json
