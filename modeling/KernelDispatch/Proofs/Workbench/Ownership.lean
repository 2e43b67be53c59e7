import KernelDispatch.Proofs.Workbench.Changes

/-!
# Every block has one owner

On a workbench that was used from the start by steps alone, what is at a place has contents, and its
block belongs to no other place. Every step keeps it so, and therefore changes at a place only what
it writes there.
-/

namespace KernelDispatch

theorem overwrite_of_short {bs src : Bytes} {offset : ℕ} (h : bs.length < offset + src.length) :
    overwrite bs offset src = bs := by
  rw [overwrite, if_neg (by omega)]

namespace ContextStep

variable {s : ContextStep} {p : Place} {bs src : Bytes} {offset : ℕ}

theorem rewritten_of_target (h : s.target? = some (p, offset, src)) :
    s.rewritten p bs = overwrite bs offset src := by
  simp [rewritten, h]

theorem rewritten_of_elsewhere (h : ∀ offset src, s.target? ≠ some (p, offset, src)) :
    s.rewritten p bs = bs := by
  unfold rewritten
  split
  · rename_i q offset src htarget
    split_ifs with hq
    · exact absurd (hq ▸ htarget) (h offset src)
    · rfl
  · rfl

theorem removes_of_target {x : Place × ℕ × Bytes} (h : s.target? = some x) :
    s.removes p = false := by
  cases s with
  | memory s => cases s <;> first | rfl | cases h
  | fill i k offset src => rfl

end ContextStep

namespace Workbench

variable {w w' : Workbench} {s : ContextStep} {p q : Place} {t : Thing} {bs : Bytes}

/-- What is at the place has these contents, and is a column or not. -/
def Shows (w : Workbench) (p : Place) (column : Bool) (bs : Bytes) : Prop :=
  ∃ t, w.thing? p = some t ∧ t.isColumn = column ∧ t.Shows w.machine.heap.blocks bs

/-- What is at a place has contents, and its block belongs to no other place. -/
structure Owned (w : Workbench) : Prop where
  live : ∀ p t, w.thing? p = some t → ∃ bs, t.Shows w.machine.heap.blocks bs
  distinct : ∀ p q t u key, w.thing? p = some t → w.thing? q = some u →
    t.key? = some key → u.key? = some key → p = q

theorem Gain.mem_blocks {b : Block} (h : w.Gain p t bs w') (hb : b ∈ w.machine.heap.blocks) :
    b ∈ w'.machine.heap.blocks := by
  obtain ⟨new, hblocks, -⟩ := h.blocks
  rw [hblocks]
  exact List.mem_append_right new hb

section Keeps

variable {column : Bool}

theorem shows_of_same (hshows : t.Shows w.machine.heap.blocks bs)
    (ht' : w'.thing? p = some t)
    (hkept : ∀ b ∈ w.machine.heap.blocks, t.key? = some b.key → b ∈ w'.machine.heap.blocks)
    (hunwritten : t.isColumn = false → s.rewritten p bs = bs) :
    w'.Shows p t.isColumn (if t.isColumn then bs else s.rewritten p bs) := by
  refine ⟨t, ht', rfl, ?_⟩
  cases hcolumn : t.isColumn with
  | true => exact hshows.mono hkept
  | false =>
    rw [if_neg Bool.false_ne_true, hunwritten hcolumn]
    exact hshows.mono hkept

theorem rewritten_of_refuses (ht : w.thing? p = some t) (hshows : t.Shows w.machine.heap.blocks bs)
    (hcolumn : t.isColumn = false)
    (h : ∀ q offset src, s.target? = some (q, offset, src) → w.Refuses q offset src.length) :
    s.rewritten p bs = bs := by
  by_cases htarget : ∃ offset src, s.target? = some (p, offset, src)
  · obtain ⟨offset, src, htarget⟩ := htarget
    have hrefuses := h p offset src htarget t ht
    cases t with
    | buffer b => exact hrefuses.elim
    | block d a =>
      rw [ContextStep.rewritten_of_target htarget]
      exact overwrite_of_short (hrefuses _ hshows rfl)
    | column c => cases hcolumn
  · exact ContextStep.rewritten_of_elsewhere fun offset src h => htarget ⟨offset, src, h⟩

theorem rewritten_of_target_ne {offset : ℕ} {src : Bytes}
    (htarget : s.target? = some (q, offset, src)) (hne : p ≠ q) : s.rewritten p bs = bs := by
  refine ContextStep.rewritten_of_elsewhere fun offset' src' htarget' => hne ?_
  cases htarget.symm.trans htarget'
  rfl

/-- What a step leaves where it is shows what it showed before, with the writes of the step to
it. -/
theorem Owned.keeps (h : w.Owned) (hchange : Change w s w') (hshows : w.Shows p column bs)
    (hkeep : s.removes p = false) :
    w'.Shows p column (if column then bs else s.rewritten p bs) := by
  obtain ⟨t, ht, rfl, hshows⟩ := hshows
  have hnowhere (htarget : s.target? = none) : s.rewritten p bs = bs :=
    ContextStep.rewritten_of_elsewhere fun _ _ => by simp [htarget]
  cases hchange with
  | idle things blocks refused =>
    refine shows_of_same hshows (by rw [things, ht]) (fun b hb _ => blocks ▸ hb) fun hcolumn => ?_
    exact rewritten_of_refuses ht hshows hcolumn refused
  | gain q u bs' gain target =>
    have hne : p ≠ q := by
      rintro rfl
      cases ht.symm.trans gain.fresh
    refine shows_of_same hshows ?_ (fun b hb _ => gain.mem_blocks hb) fun _ => hnowhere target
    rw [gain.things, if_neg hne, ht]
  | drop keys things blocks owned target =>
    refine shows_of_same hshows ?_ (fun b hb hkey => ?_) fun _ => hnowhere target
    · rw [things, hkeep, if_neg Bool.false_ne_true, ht]
    · -- a key that is freed belongs to a place that is removed, so not to this one
      rw [blocks, List.mem_filter, decide_eq_true_iff]
      refine ⟨hb, fun hmem => ?_⟩
      obtain ⟨q, u, hremoved, hu, hukey⟩ := owned b.key hmem
      rw [h.distinct p q t u b.key ht hu hkey hukey, hremoved] at hkeep
      cases hkeep
  | move q r u here fresh removed things blocks target =>
    have hne : p ≠ r := by
      rintro rfl
      cases ht.symm.trans fresh
    have hne' : p ≠ q := by
      rintro rfl
      cases hkeep.symm.trans removed
    refine shows_of_same hshows ?_ (fun b hb _ => blocks ▸ hb) fun _ => hnowhere target
    rw [things, if_neg hne, if_neg hne', ht]
  | write q b offset src here things blocks target =>
    by_cases hp : p = q
    · subst hp
      cases ht.symm.trans here
      have hthing : w'.thing? p = some (.buffer (b.write offset src)) := by rw [things, if_pos rfl]
      refine ⟨_, hthing, rfl, ?_⟩
      change s.rewritten p bs = overwrite b.padded offset src
      rw [ContextStep.rewritten_of_target target, hshows]
    · refine shows_of_same hshows ?_ (fun b hb _ => blocks ▸ hb) fun _ =>
        rewritten_of_target_ne target hp
      rw [things, if_neg hp, ht]
  | copy q d a offset src newer older b here things key before blocks target =>
    by_cases hp : p = q
    · subst hp
      cases ht.symm.trans here
      refine ⟨_, by rw [things, ht], rfl, ?_⟩
      have hb : b ∈ w.machine.heap.blocks := by simp [before]
      obtain rfl : b = ⟨d.slot, a.value, bs⟩ := Heap.eq_of_base hb hshows (Prod.ext_iff.mp key).2
      change ⟨d.slot, a.value, s.rewritten p bs⟩ ∈ w'.machine.heap.blocks
      rw [blocks, ContextStep.rewritten_of_target target]
      exact List.mem_append_right _ List.mem_cons_self
    · refine shows_of_same hshows (by rw [things, ht]) (fun c hc hkey => ?_) fun _ =>
        rewritten_of_target_ne target hp
      -- the block that is written belongs to the other place
      have hne : c ≠ b := by
        rintro rfl
        rw [key] at hkey
        exact hp (h.distinct p q t _ _ ht here hkey rfl)
      rw [before, List.mem_append, List.mem_cons] at hc
      rw [blocks, List.mem_append, List.mem_cons]
      exact hc.imp_right fun hrest => Or.inr (hrest.resolve_left hne)

end Keeps

namespace Owned

theorem live_change (h : w.Owned) (hchange : Change w s w') (ht : w'.thing? p = some t) :
    ∃ bs, t.Shows w'.machine.heap.blocks bs := by
  have hstays {t₀ : Thing} (ht₀ : w.thing? p = some t₀) (hkeep : s.removes p = false) :
      ∃ bs, t.Shows w'.machine.heap.blocks bs := by
    obtain ⟨bs, hshows⟩ := h.live p t₀ ht₀
    obtain ⟨t', ht', -, hshows'⟩ := h.keeps hchange ⟨t₀, ht₀, rfl, hshows⟩ hkeep
    cases ht.symm.trans ht'
    exact ⟨_, hshows'⟩
  cases hchange with
  | idle things blocks refused =>
    rw [things] at ht
    rw [blocks]
    exact h.live p t ht
  | gain q u bs gain target =>
    rw [gain.things] at ht
    split_ifs at ht with hp
    · cases ht
      exact ⟨bs, gain.shows⟩
    · obtain ⟨bs', hshows⟩ := h.live p t ht
      exact ⟨bs', hshows.mono fun b hb _ => gain.mem_blocks hb⟩
  | drop keys things blocks owned target =>
    have hthing := things p
    cases hremoved : s.removes p with
    | true =>
      rw [hremoved, if_pos rfl, ht] at hthing
      cases hthing
    | false =>
      rw [hremoved, if_neg Bool.false_ne_true, ht] at hthing
      exact hstays hthing.symm hremoved
  | move q r u here fresh removed things blocks target =>
    rw [things] at ht
    rw [blocks]
    split_ifs at ht with hr hq
    · cases ht
      exact h.live q t here
    · exact h.live p t ht
  | write q b offset src here things blocks target =>
    rw [things] at ht
    rw [blocks]
    split_ifs at ht with hq
    · cases ht
      exact ⟨_, rfl⟩
    · exact h.live p t ht
  | copy q d a offset src newer older b here things key before blocks target =>
    exact hstays (by rw [← things, ht]) (ContextStep.removes_of_target target)

theorem distinct_change {u : Thing} {key : ℕ × ℕ} (h : w.Owned) (hchange : Change w s w')
    (ht : w'.thing? p = some t) (hu : w'.thing? q = some u) (hkey : t.key? = some key)
    (hkey' : u.key? = some key) : p = q := by
  cases hchange with
  | idle things blocks refused =>
    rw [things] at ht hu
    exact h.distinct p q t u key ht hu hkey hkey'
  | gain r x bs gain target =>
    obtain ⟨new, hblocks, hnew⟩ := gain.blocks
    -- the block of what came is none of those that were there before
    have hfresh {v : Thing} {r' : Place} (hx : x.key? = some key) (hv : w.thing? r' = some v) :
        v.key? ≠ some key := by
      intro hkeyv
      obtain ⟨bs', hshows⟩ := h.live r' v hv
      obtain ⟨b, hb, hbkey⟩ := hshows.exists_block hkeyv
      obtain ⟨c, hc, hckey⟩ := List.mem_map.mp (hnew key hx)
      exact Heap.base_ne_of_newer hblocks hc hb (congrArg Prod.snd (hckey.trans hbkey.symm))
    rw [gain.things] at ht hu
    split_ifs at ht hu with hp hq hq
    · rw [hp, hq]
    · cases ht
      exact absurd hkey' (hfresh hkey hu)
    · cases hu
      exact absurd hkey (hfresh hkey' ht)
    · exact h.distinct p q t u key ht hu hkey hkey'
  | drop keys things blocks owned target =>
    rw [things] at ht hu
    split_ifs at ht hu
    exact h.distinct p q t u key ht hu hkey hkey'
  | move r r' x here fresh removed things blocks target =>
    rw [things] at ht hu
    split_ifs at ht hu with hp hq hq' hp' hq hq'
    · rw [hp, hq]
    · cases ht
      exact absurd (h.distinct r q t u key here hu hkey hkey').symm hq'
    · cases hu
      exact absurd (h.distinct p r t u key ht here hkey hkey') hp'
    · exact h.distinct p q t u key ht hu hkey hkey'
  | write r b offset src here things blocks target =>
    rw [things] at ht hu
    split_ifs at ht hu with hp hq hq
    · rw [hp, hq]
    · cases ht
      cases hkey
    · cases hu
      cases hkey'
    · exact h.distinct p q t u key ht hu hkey hkey'
  | copy r d a offset src newer older b here things key' before blocks target =>
    rw [things] at ht hu
    exact h.distinct p q t u key ht hu hkey hkey'

theorem next (h : w.Owned) (hstray : s.pointer?.any w.strays = false) : (w.next s).Owned where
  live _ _ ht := h.live_change (w.change s hstray) ht
  distinct _ _ _ _ _ ht hu hkey hkey' := h.distinct_change (w.change s hstray) ht hu hkey hkey'

theorem after {steps : List ContextStep} (h : w.Owned) (hastray : w.astray steps = false) :
    (w.after steps).Owned := by
  induction steps generalizing w with
  | nil => exact h
  | cons s rest ih =>
    obtain ⟨hstray, hrest⟩ := Bool.or_eq_false_iff.mp hastray
    exact ih (h.next hstray) hrest

theorem start {store : ColumnStore} {budget : Budget} :
    Workbench.Owned { store, machine := { budget } } where
  live p t ht := by cases p <;> cases ht
  distinct p _ _ _ _ ht := by cases p <;> cases ht

end Owned

section Contents

variable {column : Bool} {steps : List ContextStep}

theorem Shows.contents (h : w.Shows p column bs) : w.contents? p = some bs := by
  obtain ⟨t, ht, -, hshows⟩ := h
  rw [contents?, ht, Option.bind_some, hshows.read]

theorem Shows.isColumn (h : w.Shows p column bs) : w.isColumn p = column := by
  obtain ⟨t, ht, hcolumn, -⟩ := h
  rw [Workbench.isColumn, ht, Option.any_some, hcolumn]

theorem Owned.shows (h : w.Owned) (hbs : w.contents? p = some bs) :
    w.Shows p (w.isColumn p) bs := by
  obtain ⟨t, ht, hread⟩ := Option.bind_eq_some_iff.mp hbs
  obtain ⟨bs', hshows⟩ := h.live p t ht
  have hthere : w.Shows p t.isColumn bs' := ⟨t, ht, rfl, hshows⟩
  cases hbs.symm.trans hthere.contents
  rw [hthere.isColumn]
  exact hthere

/-- As long as it is not taken away, what is at a place changes by the writes to it alone. -/
theorem Owned.keeps_after (h : w.Owned) (hastray : w.astray steps = false)
    (hshows : w.Shows p column bs) (hkeep : ∀ s ∈ steps, s.removes p = false) :
    (w.after steps).Shows p column
      (if column then bs else steps.foldl (fun bs s => s.rewritten p bs) bs) := by
  induction steps generalizing w bs with
  | nil =>
    cases column <;> exact hshows
  | cons s rest ih =>
    obtain ⟨hstray, hrest⟩ := Bool.or_eq_false_iff.mp hastray
    have hnext := h.keeps (w.change s hstray) hshows (hkeep s List.mem_cons_self)
    have hafter := ih (h.next hstray) hrest hnext fun s hs => hkeep s (List.mem_cons_of_mem _ hs)
    cases column <;> exact hafter

end Contents

end Workbench

end KernelDispatch
