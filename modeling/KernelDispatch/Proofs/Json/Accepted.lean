import KernelDispatch.Proofs.Json.Spelling

/-!
# Only spelled documents are read

Whatever the reader accepts is spelled by the characters that it has read. Together with the other
direction, a text is read exactly if it spells a document, and it is read as the document that it
spells.
-/

namespace KernelDispatch.Json

variable {cs rest : List Char}

section Numbers

variable {ds whole fraction exponent : List Char}

theorem digits_of_splitDigits (h : splitDigits cs = (ds, rest)) : Digits ds ∧ cs = ds ++ rest := by
  rw [splitDigits, List.span_eq_takeWhile_dropWhile, Prod.mk.injEq] at h
  obtain ⟨rfl, rfl⟩ := h
  exact ⟨fun d hd => List.mem_takeWhile_imp hd, List.takeWhile_append_dropWhile.symm⟩

theorem isWhole_of_readWhole (h : readWhole cs = some (whole, rest)) :
    IsWhole whole ∧ cs = whole ++ rest := by
  unfold readWhole at h
  split at h
  · cases h
  · rename_i hsplit
    cases h
    exact ⟨.inl rfl, (digits_of_splitDigits hsplit).2⟩
  · cases h
  · rename_i hempty _ hleading hsplit
    cases h
    obtain ⟨hdigits, rfl⟩ := digits_of_splitDigits hsplit
    cases whole with
    | nil => exact (hempty rfl).elim
    | cons d ds => exact ⟨.inr ⟨d, ds, rfl, by rintro rfl; exact hleading ds rfl, hdigits⟩, rfl⟩

theorem isFraction_of_readFraction (h : readFraction cs = some (fraction, rest)) :
    IsFraction fraction ∧ cs = fraction ++ rest := by
  unfold readFraction at h
  split at h
  · split at h
    · cases h
    · rename_i hempty hsplit
      cases h
      obtain ⟨hdigits, rfl⟩ := digits_of_splitDigits hsplit
      exact ⟨.inr ⟨_, hempty, hdigits, rfl⟩, rfl⟩
  · cases h
    exact ⟨.inl rfl, rfl⟩

theorem sign_of_splitSign {sign : List Char} (h : splitSign cs = (sign, rest)) :
    (sign = [] ∨ sign = ['+'] ∨ sign = ['-']) ∧ cs = sign ++ rest := by
  unfold splitSign at h
  split at h <;> cases h <;> simp

theorem isExponent_of_readExponent (h : readExponent cs = some (exponent, rest)) :
    IsExponent exponent ∧ cs = exponent ++ rest := by
  cases cs with
  | nil =>
    cases h
    exact ⟨.inl rfl, rfl⟩
  | cons e cs =>
    rw [readExponent] at h
    split at h
    · rename_i he
      obtain ⟨hsign, hafter⟩ := sign_of_splitSign (Prod.mk.eta (p := splitSign cs)).symm
      simp only at h
      split at h
      · cases h
      · rename_i hempty hdigits
        cases h
        obtain ⟨hdigits, hrest⟩ := digits_of_splitDigits hdigits
        rw [hrest] at hafter
        exact ⟨.inr ⟨e, _, _, he, hsign, hempty, hdigits, rfl⟩, by simpa using hafter⟩
    · cases h
      exact ⟨.inl rfl, rfl⟩

theorem toDigits_digit {d : Char} (hd : d.isDigit = true) :
    d.toNat - 48 < 10 ∧ Nat.toDigits 10 (d.toNat - 48) = [d] := by
  simp only [Char.isDigit, Bool.and_eq_true, decide_eq_true_eq, ge_iff_le,
    UInt32.le_iff_toNat_le] at hd
  have hlow : 48 ≤ d.toNat := hd.1
  have hhigh : d.toNat ≤ 57 := hd.2
  have hvalue : d.toNat - 48 < 10 := by omega
  refine ⟨hvalue, ?_⟩
  rw [Nat.toDigits_of_lt_base hvalue]
  congr
  apply Char.toNat_inj.mp
  rw [Nat.toNat_digitChar_of_lt_ten hvalue]
  omega

theorem toDigits_foldl (hds : Digits ds) {n : Nat} (hn : 0 < n) :
    Nat.toDigits 10 (ds.foldl (fun n d => n * 10 + (d.toNat - 48)) n) =
      Nat.toDigits 10 n ++ ds := by
  induction ds generalizing n with
  | nil => simp
  | cons d ds ih =>
    obtain ⟨hvalue, hdigit⟩ := toDigits_digit (hds d List.mem_cons_self)
    have happend := Nat.toDigits_append_toDigits (by decide) hn hvalue
    rw [List.foldl_cons, ih (fun e he => hds e (List.mem_cons_of_mem _ he)) (by omega),
      Nat.mul_comm n, ← happend, hdigit, List.append_assoc, List.singleton_append]

/-- A whole part is made of the decimal digits of its value. -/
theorem toDigits_digitsValue (hds : IsWhole ds) : Nat.toDigits 10 (digitsValue ds) = ds := by
  rcases hds with rfl | ⟨d, ds, rfl, hzero, hdigits⟩
  · rfl
  · obtain ⟨-, hdigit⟩ := toDigits_digit (hdigits d List.mem_cons_self)
    have hpos : 0 < d.toNat - 48 := by
      by_contra hnot
      rw [show d.toNat - 48 = 0 by omega] at hdigit
      cases hdigit
      exact hzero rfl
    have hfold := toDigits_foldl (fun e he => hdigits e (List.mem_cons_of_mem _ he)) hpos
    simpa [digitsValue, hdigit] using hfold

theorem integerText_digitsValue (negative : Bool) (hwhole : IsWhole whole)
    (hsome : ¬(negative = true ∧ digitsValue whole = 0)) :
    integerText (if negative then -digitsValue whole else digitsValue whole) =
      (if negative then ['-'] else []) ++ whole := by
  cases negative with
  | false => simp [integerText, toDigits_digitsValue hwhole]
  | true =>
    obtain ⟨n, hn⟩ := Nat.exists_eq_succ_of_ne_zero fun h => hsome ⟨rfl, h⟩
    have hdigits := toDigits_digitsValue hwhole
    rw [hn] at hdigits ⊢
    rw [if_pos rfl, if_pos rfl, List.singleton_append, ← hdigits]
    rfl

theorem spells_of_readUnsigned {negative : Bool} {j : Json}
    (h : readUnsigned negative cs = some (j, rest)) :
    ∃ v, Spells v j ∧ (if negative then ['-'] else []) ++ cs = v ++ rest := by
  simp only [readUnsigned, Option.bind_eq_bind, Option.bind_eq_some_iff, Prod.exists] at h
  obtain ⟨whole, _, hreadWhole, fraction, _, hreadFraction, exponent, _, hreadExponent, h⟩ := h
  obtain ⟨hwhole, rfl⟩ := isWhole_of_readWhole hreadWhole
  obtain ⟨hfraction, rfl⟩ := isFraction_of_readFraction hreadFraction
  obtain ⟨hexponent, rfl⟩ := isExponent_of_readExponent hreadExponent
  by_cases hinteger : fraction = [] ∧ exponent = [] ∧ ¬(negative = true ∧ digitsValue whole = 0)
  · rw [if_pos (by cases negative <;> simpa [and_assoc] using hinteger)] at h
    obtain ⟨rfl, rfl, hsome⟩ := hinteger
    cases h
    exact ⟨_, .integer _, by simp [integerText_digitsValue negative hwhole hsome]⟩
  · rw [if_neg (by cases negative <;> simpa [and_assoc] using hinteger)] at h
    cases h
    refine ⟨_, .real hwhole hfraction hexponent ?_, by simp⟩
    by_contra hnone
    simp only [not_or, not_and, not_not] at hnone
    refine hinteger ⟨hnone.1, hnone.2.1, fun hzero => hnone.2.2 hzero.1 ?_⟩
    rw [← toDigits_digitsValue hwhole, hzero.2]
    rfl

theorem spells_of_readNumber {j : Json} (h : readNumber cs = some (j, rest)) :
    ∃ v, Spells v j ∧ cs = v ++ rest := by
  unfold readNumber at h
  split at h <;> exact spells_of_readUnsigned h

end Numbers

theorem spellsUnits_of_readString {units : List TextUnit} (h : readString cs = some (units, rest)) :
    ∃ body, SpellsUnits body units ∧ cs = body ++ '"' :: rest := by
  fun_induction readString cs generalizing units with
  | case1 rest =>
    cases h
    exact ⟨[], .nil, rfl⟩
  | case2 a b c d after unit units rest hread hunit ih =>
    cases h
    obtain ⟨body, hbody, rfl⟩ := ih hread
    exact ⟨_, .numbered hunit hbody, rfl⟩
  | case4 e after _ c units rest hread hshort ih =>
    cases h
    obtain ⟨body, hbody, rfl⟩ := ih hread
    exact ⟨_, .short hshort hbody, rfl⟩
  | case8 c after hquote _ hescape hend hcontrol ih =>
    obtain ⟨⟨units, rest⟩, hread, heq⟩ := Option.map_eq_some_iff.mp h
    cases heq
    obtain ⟨body, hbody, rfl⟩ := ih hread
    -- A backslash would have been read as the start of an escape.
    have hslash : c ≠ '\\' := by
      rintro rfl
      cases body with
      | nil => exact hescape _ _ rfl rfl
      | cons d body => exact hescape _ _ rfl rfl
    exact ⟨_, .plain hquote hslash (by omega) hbody, rfl⟩
  | case3 | case5 | case6 | case7 | case9 => cases h

theorem exists_blank (h : skipBlanks cs = rest) : ∃ b, Blank b ∧ cs = b ++ rest := by
  subst h
  exact ⟨cs.takeWhile isBlank, fun _ hc => List.mem_takeWhile_imp hc,
    List.takeWhile_append_dropWhile.symm⟩

theorem exists_key {fuel : Nat} {members : List (List TextUnit × Json)}
    (hread : readMembers (fuel + 1) cs = some (members, rest)) :
    ∃ start key colon content units, Blank start ∧ SpellsUnits key units ∧ Blank colon ∧
      cs = start ++ '"' :: (key ++ '"' :: (colon ++ ':' :: content)) := by
  rw [readMembers] at hread
  split at hread
  · rename_i hquote
    obtain ⟨start, hstart, rfl⟩ := exists_blank hquote
    split at hread
    · cases hread
    · rename_i units afterName hname
      obtain ⟨key, hkey, rfl⟩ := spellsUnits_of_readString hname
      split at hread
      · rename_i content hcontent
        obtain ⟨colon, hcolon, rfl⟩ := exists_blank hcontent
        exact ⟨start, key, colon, content, units, hstart, hkey, hcolon, rfl⟩
      · cases hread
  · cases hread

/-- What is read with this fuel is spelled by the characters that were read. -/
structure Spelled (fuel : Nat) : Prop where
  value : ∀ {cs rest j}, readValue fuel cs = some (j, rest) →
    ∃ b v, Blank b ∧ Spells v j ∧ cs = b ++ (v ++ rest)
  items : ∀ {cs rest items}, readItems fuel cs = some (items, rest) →
    ∃ v, SpellsItems v items ∧ cs = v ++ rest
  members : ∀ {cs rest members}, readMembers fuel cs = some (members, rest) →
    ∃ v, SpellsMembers v members ∧ cs = v ++ rest

namespace Spelled

variable {fuel : Nat}

theorem value_succ (h : Spelled fuel) {j : Json}
    (hread : readValue (fuel + 1) cs = some (j, rest)) :
    ∃ b v, Blank b ∧ Spells v j ∧ cs = b ++ (v ++ rest) := by
  -- One case for each first character that the reader tells apart, numbers last.
  rw [readValue] at hread
  split at hread
  case h_1 hstart =>
    cases hread
    obtain ⟨b, hb, rfl⟩ := exists_blank hstart
    exact ⟨b, _, hb, .null, rfl⟩
  case h_2 hstart =>
    cases hread
    obtain ⟨b, hb, rfl⟩ := exists_blank hstart
    exact ⟨b, _, hb, .boolTrue, rfl⟩
  case h_3 hstart =>
    cases hread
    obtain ⟨b, hb, rfl⟩ := exists_blank hstart
    exact ⟨b, _, hb, .boolFalse, rfl⟩
  case h_4 content hstart =>
    obtain ⟨b, hb, rfl⟩ := exists_blank hstart
    obtain ⟨⟨units, after⟩, hunits, hsome⟩ := Option.map_eq_some_iff.mp hread
    cases hsome
    obtain ⟨body, hbody, rfl⟩ := spellsUnits_of_readString hunits
    exact ⟨b, _, hb, .string hbody, by simp⟩
  case h_5 content hstart =>
    obtain ⟨b, hb, rfl⟩ := exists_blank hstart
    split at hread
    · rename_i hclose
      cases hread
      obtain ⟨inner, hinner, rfl⟩ := exists_blank hclose
      exact ⟨b, _, hb, .emptyArray hinner, by simp⟩
    · obtain ⟨⟨items, after⟩, hitems, hsome⟩ := Option.map_eq_some_iff.mp hread
      cases hsome
      rw [readItems_skipBlanks] at hitems
      obtain ⟨v, hv, rfl⟩ := h.items hitems
      exact ⟨b, _, hb, .array hv, rfl⟩
  case h_6 content hstart =>
    obtain ⟨b, hb, rfl⟩ := exists_blank hstart
    split at hread
    · rename_i hclose
      cases hread
      obtain ⟨inner, hinner, rfl⟩ := exists_blank hclose
      exact ⟨b, _, hb, .emptyObject hinner, by simp⟩
    · obtain ⟨⟨members, after⟩, hmembers, hsome⟩ := Option.map_eq_some_iff.mp hread
      cases hsome
      rw [readMembers_skipBlanks] at hmembers
      obtain ⟨v, hv, rfl⟩ := h.members hmembers
      exact ⟨b, _, hb, .object hv, rfl⟩
  case h_7 =>
    obtain ⟨v, hv, hstart⟩ := spells_of_readNumber hread
    obtain ⟨b, hb, rfl⟩ := exists_blank hstart
    exact ⟨b, v, hb, hv, rfl⟩

theorem items_succ (h : Spelled fuel) {items : List Json}
    (hread : readItems (fuel + 1) cs = some (items, rest)) :
    ∃ v, SpellsItems v items ∧ cs = v ++ rest := by
  rw [readItems] at hread
  split at hread
  · cases hread
  · rename_i item afterItem hitem
    obtain ⟨before, v, hbefore, hv, rfl⟩ := h.value hitem
    split at hread
    · rename_i hclose
      cases hread
      obtain ⟨after, hafter, rfl⟩ := exists_blank hclose
      exact ⟨_, .last hbefore hv hafter, by simp⟩
    · rename_i next hcomma
      obtain ⟨after, hafter, rfl⟩ := exists_blank hcomma
      obtain ⟨⟨items, rest⟩, hitems, hsome⟩ := Option.map_eq_some_iff.mp hread
      cases hsome
      obtain ⟨others, hothers, rfl⟩ := h.items hitems
      exact ⟨_, .more hbefore hv hafter hothers, by simp⟩
    · cases hread

theorem members_succ (h : Spelled fuel) {members : List (List TextUnit × Json)}
    (hread : readMembers (fuel + 1) cs = some (members, rest)) :
    ∃ v, SpellsMembers v members ∧ cs = v ++ rest := by
  obtain ⟨start, key, colon, content, units, hstart, hkey, hcolon, rfl⟩ := exists_key hread
  rw [readMembers_key hstart hkey hcolon] at hread
  split at hread
  · cases hread
  · rename_i value afterValue hvalue
    obtain ⟨before, v, hbefore, hv, rfl⟩ := h.value hvalue
    split at hread
    · rename_i hclose
      cases hread
      obtain ⟨after, hafter, rfl⟩ := exists_blank hclose
      exact ⟨_, .last hstart hkey hcolon hbefore hv hafter, by simp⟩
    · rename_i next hcomma
      obtain ⟨after, hafter, rfl⟩ := exists_blank hcomma
      obtain ⟨⟨members, rest⟩, hmembers, hsome⟩ := Option.map_eq_some_iff.mp hread
      cases hsome
      obtain ⟨others, hothers, rfl⟩ := h.members hmembers
      exact ⟨_, .more hstart hkey hcolon hbefore hv hafter hothers, by simp⟩
    · cases hread

end Spelled

/-- Every reader calls the others with one unit of fuel less, so one induction on the fuel serves
all three. -/
theorem spelled (fuel : Nat) : Spelled fuel := by
  induction fuel with
  | zero =>
    refine ⟨fun h => ?_, fun h => ?_, fun h => ?_⟩
    · rw [readValue] at h
      cases h
    · rw [readItems] at h
      cases h
    · rw [readMembers] at h
      cases h
  | succ fuel ih => exact ⟨ih.value_succ, ih.items_succ, ih.members_succ⟩

/-- A text is read exactly if it spells a document. -/
theorem parse?_eq_some_iff {text : String} {j : Json} :
    parse? text = some j ↔ SpelledBy j text := by
  refine ⟨fun h => ?_, parse?_of_spelledBy⟩
  simp only [parse?] at h
  split at h
  · rename_i doc rest hread
    obtain ⟨before, v, hbefore, hv, htext⟩ := (spelled _).value hread
    split at h
    · rename_i hend
      cases h
      obtain ⟨after, hafter, rfl⟩ := exists_blank (List.isEmpty_iff.mp hend)
      exact ⟨before, v, after, hbefore, hv, hafter, by simpa using htext⟩
    · cases h
  · cases h

end KernelDispatch.Json
