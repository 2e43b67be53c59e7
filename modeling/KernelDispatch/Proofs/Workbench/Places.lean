import KernelDispatch.Proofs.Context.Ledger
import KernelDispatch.Workbench

/-!
# What can be read on a workbench, and where

A place is a handle, a buffer of a context, or a pointer that has not been freed. What is there is
host memory, the start of a block of a device, or a fetched column, and has contents as long as the
heap has its block. Besides the steps of a workbench, the owner of a context may write the buffers
that the context holds.
-/

namespace KernelDispatch

/-- A memory operation, or a write of an owner to one of the buffers of its context. -/
inductive ContextStep
  | memory (s : MemoryStep)
  | fill (context position offset : ℕ) (src : Bytes)

def MemoryStep.freed? : MemoryStep → Option ℕ
  | .free i 0 => some i
  | _ => none

/-- Where something can be read: a handle, a buffer by its position in a context, or a pointer. -/
inductive Place
  | held (handle : ℕ)
  | buffer (context position : ℕ)
  | pointer (handle : ℕ)
deriving DecidableEq

/-- Something that can be read. -/
inductive Thing
  | buffer (b : HostBuffer)
  /-- The allocation of a device that starts at an address. -/
  | block (d : Device) (a : Address)
  | column (c : FetchedColumn)

namespace Thing

/-- The block that holds the contents, by owner and start. -/
def key? : Thing → Option (ℕ × ℕ)
  | buffer _ => none
  | block d a => some (d.slot, a.value)
  | column c =>
    match c.site with
    | .host => none
    | .device d a => some (d.slot, a.value)

/-- The contents: all bytes of a host buffer or an allocation, the stored bytes of a column. -/
def read (m : Machine) : Thing → Option Bytes
  | buffer b => some b.padded
  | block d a => (m.heap.sizeAt? d a).bind fun n => (m.heap.copyFrom d a n).toOption
  | column c => (c.load m).toOption

/-- Whether nobody can write to it. -/
def isColumn : Thing → Bool
  | column _ => true
  | _ => false

end Thing

def Held.thing? : Held → Option Thing
  | reservation _ => none
  | buffer b => some (.buffer b)
  | column c => some (.column c)

def Allocation.thing? (site : Site) : Allocation → Option Thing
  | host b => some (.buffer b)
  | device a _ =>
    match site with
    | .host => none
    | .device d => some (.block d a)
  | borrowed c => some (.column c)

def Pointer.thing? (p : Pointer) : Option Thing :=
  if p.live then some (.block p.device p.address) else none

def Context.thing? (c : Context) (position : ℕ) : Option Thing :=
  c.allocations[position]?.bind (Allocation.thing? c.site)

namespace ContextStep

/-- Whether the step takes away what is at a place: by dropping, freeing or moving it. -/
def removes : ContextStep → Place → Bool
  | .memory (.drop j), .held j' => j' == j
  | .memory (.borrow _ j), .held j' => j' == j
  | .memory (.dropContext i), .buffer i' _ => i' == i
  | .memory (.free p offset), .pointer p' => p' == p && offset == 0
  | _, _ => false

/-- Where the step writes, at which offset, and what. -/
def target? : ContextStep → Option (Place × ℕ × Bytes)
  | .memory (.write j offset src) => some (.held j, offset, src)
  | .memory (.copyTo p offset src) => some (.pointer p, offset, src)
  | .fill i k offset src => some (.buffer i k, offset, src)
  | _ => none

def pointer? : ContextStep → Option ℕ
  | .memory (.copyTo i _ _) => some i
  | .memory s => s.freed?
  | .fill _ _ _ _ => none

/-- The contents of a place after the step, unless it is taken away. -/
def rewritten (s : ContextStep) (p : Place) (bs : Bytes) : Bytes :=
  match s.target? with
  | some (q, offset, src) => if q = p then overwrite bs offset src else bs
  | none => bs

end ContextStep

namespace Workbench

variable (w : Workbench)

def thing? : Place → Option Thing
  | .held j => (w.held? j).bind Held.thing?
  | .buffer i k => (w.context? i).bind (·.thing? k)
  | .pointer p => w.pointers[p]?.bind Pointer.thing?

def contents? (p : Place) : Option Bytes := (w.thing? p).bind (·.read w.machine)

/-- Whether a fetched column is at a place. -/
def isColumn (p : Place) : Bool := (w.thing? p).any (·.isColumn)

/-- The owner of a context writes one of its buffers. Columns are read only. -/
def fill (i k offset : ℕ) (src : Bytes) : Except Failure Workbench :=
  match w.context? i with
  | none => .ok w
  | some c =>
    match c.thing? k with
    | some (.buffer b) =>
      let c := { c with allocations := c.allocations.set k (.host (b.write offset src)) }
      .ok { w with contexts := w.contexts.set i (some c) }
    | some (.block d a) => do
      let machine ← w.copyInto ⟨d, a, true⟩ offset src
      return { w with machine }
    | _ => .ok w

def next : ContextStep → Workbench
  | .memory s => (w.step s).2
  | .fill i k offset src => (w.fill i k offset src).toOption.getD w

def after (steps : List ContextStep) : Workbench := steps.foldl next w

/-- Whether the pointer was freed, and its device has another allocation at its address by now. -/
def strays (i : ℕ) : Bool :=
  w.pointers[i]?.any fun p => !p.live && (w.machine.heap.sizeAt? p.device p.address).isSome

/-- Whether one of the steps frees or writes through a pointer that strays. The device cannot tell:
it takes the other allocation, whosever it is. -/
def astray (w : Workbench) : List ContextStep → Bool
  | [] => false
  | s :: rest => s.pointer?.any w.strays || (w.next s).astray rest

variable {w} {w' : Workbench} {i j k : ℕ} {c c' : Context} {q : Place}

section Lookup

variable {α : Type} {l : List (Option α)} {x y : Option α} {a : α}

theorem join_append_singleton : (l ++ [y])[j]?.join = if j = l.length then y else l[j]?.join := by
  rcases Nat.lt_trichotomy j l.length with hlt | rfl | hgt
  · rw [if_neg hlt.ne, List.getElem?_append_left hlt]
  · rw [if_pos rfl, List.getElem?_concat_length]
    rfl
  · rw [if_neg hgt.ne', List.getElem?_eq_none (by simp; omega), List.getElem?_eq_none (by omega)]

theorem join_set (h : l[i]?.join = some a) :
    (l.set i y)[j]?.join = if j = i then y else l[j]?.join := by
  obtain ⟨hi, -⟩ := List.getElem?_eq_some_iff.mp (Option.join_eq_some_iff.mp h)
  by_cases hj : j = i
  · subst hj
    rw [if_pos rfl, List.getElem?_set_self hi]
    rfl
  · rw [if_neg hj, List.getElem?_set_ne (Ne.symm hj)]

end Lookup

section Changes

variable {m : Machine} {t : Option Thing}

theorem thing?_of_held {y : Option Held}
    (hheld : ∀ j', w'.held? j' = if j' = j then y else w.held? j')
    (hcontexts : w'.contexts = w.contexts) (hpointers : w'.pointers = w.pointers) :
    w'.thing? q = if q = .held j then y.bind Held.thing? else w.thing? q := by
  cases q with
  | held j' =>
    rw [thing?, hheld]
    by_cases hj : j' = j
    · simp [hj]
    · simp [hj, thing?]
  | buffer i k => simp [thing?, context?, hcontexts]
  | pointer p => simp [thing?, hpointers]

theorem thing?_keep {x : Held} : ({ w with machine := m }.keep x).thing? q =
    if q = .held w.held.length then x.thing? else w.thing? q :=
  thing?_of_held (y := some x) (fun _ => join_append_singleton (l := w.held)) rfl rfl

theorem thing?_held_length : w.thing? (.held w.held.length) = none := by
  simp [thing?, held?]

theorem thing?_setHeld {x : Held} (hx : w.held? j = some x) (y : Option Held) :
    ({ w with machine := m, held := w.held.set j y } : Workbench).thing? q =
      if q = .held j then y.bind Held.thing? else w.thing? q :=
  thing?_of_held (fun _ => join_set hx) rfl rfl

theorem thing?_setContext (hc : w.context? i = some c)
    (hthings : ∀ k', c'.thing? k' = if k' = k then t else c.thing? k') :
    ({ w with machine := m, contexts := w.contexts.set i (some c') } : Workbench).thing? q =
      if q = .buffer i k then t else w.thing? q := by
  cases q with
  | held j => simp [thing?, held?]
  | buffer i' k' =>
    rw [thing?, context?, join_set hc]
    by_cases hi : i' = i
    · subst hi
      rw [if_pos rfl, Option.bind_some, hthings]
      by_cases hk : k' = k
      · simp [hk]
      · simp [hk, thing?, hc]
    · simp [hi, thing?, context?]
  | pointer p => simp [thing?]

theorem thing?_of_pointer
    (hpointer : ∀ j', w'.pointers[j']?.bind Pointer.thing? =
      if j' = j then t else w.pointers[j']?.bind Pointer.thing?)
    (hheld : w'.held = w.held) (hcontexts : w'.contexts = w.contexts) :
    w'.thing? q = if q = .pointer j then t else w.thing? q := by
  cases q with
  | held j => simp [thing?, held?, hheld]
  | buffer i k => simp [thing?, context?, hcontexts]
  | pointer p =>
    rw [thing?, hpointer]
    by_cases hp : p = j
    · simp [hp]
    · simp [hp, thing?]

theorem thing?_pushPointer {p : Pointer} :
    ({ w with machine := m, pointers := w.pointers ++ [p] } : Workbench).thing? q =
      if q = .pointer w.pointers.length then p.thing? else w.thing? q := by
  refine thing?_of_pointer (fun j' => ?_) rfl rfl
  rcases Nat.lt_trichotomy j' w.pointers.length with hlt | rfl | hgt
  · rw [if_neg hlt.ne, List.getElem?_append_left hlt]
  · rw [if_pos rfl, List.getElem?_concat_length]
    rfl
  · rw [if_neg hgt.ne', List.getElem?_eq_none (by simp; omega), List.getElem?_eq_none (by omega)]

theorem thing?_setPointer {p : Pointer} (hj : j < w.pointers.length) :
    ({ w with machine := m, pointers := w.pointers.set j p } : Workbench).thing? q =
      if q = .pointer j then p.thing? else w.thing? q := by
  refine thing?_of_pointer (fun j' => ?_) rfl rfl
  by_cases hq : j' = j
  · subst hq
    rw [List.getElem?_set_self hj, if_pos rfl]
    rfl
  · rw [List.getElem?_set_ne (Ne.symm hq), if_neg hq]

end Changes

end Workbench

namespace Context

variable {c : Context} {a : Allocation} {k position : ℕ}

theorem thing?_hold : (c.hold a).thing? position =
    if position = c.allocations.length then a.thing? c.site else c.thing? position := by
  rcases Nat.lt_trichotomy position c.allocations.length with hlt | rfl | hgt
  · rw [if_neg hlt.ne, thing?, hold, List.getElem?_append_left hlt, thing?]
  · rw [if_pos rfl, thing?, hold, List.getElem?_concat_length]
    rfl
  · rw [if_neg hgt.ne', thing?, thing?, hold, List.getElem?_eq_none (by simp; omega),
      List.getElem?_eq_none (by omega)]

theorem thing?_set (h : k < c.allocations.length) :
    ({ c with allocations := c.allocations.set k a } : Context).thing? position =
      if position = k then a.thing? c.site else c.thing? position := by
  by_cases hk : position = k
  · subst hk
    rw [if_pos rfl, thing?, List.getElem?_set_self h]
    rfl
  · rw [if_neg hk, thing?, List.getElem?_set_ne (Ne.symm hk), thing?]

theorem thing?_length : c.thing? c.allocations.length = none := by
  rw [thing?, List.getElem?_eq_none le_rfl]
  rfl

end Context

theorem Allocation.key?_eq (site : Site) (a : Allocation) :
    a.key? site = (a.thing? site).bind Thing.key? := by
  cases a with
  | host b => rfl
  | device a n => cases site <;> rfl
  | borrowed c => rfl

/-- The blocks have these contents for a thing. -/
def Thing.Shows (blocks : List Block) (bs : Bytes) : Thing → Prop
  | .buffer b => bs = b.padded
  | .block d a => ⟨d.slot, a.value, bs⟩ ∈ blocks
  | .column c => bs = c.source.bytes ∧ ∀ d a, c.site = .device d a →
      ∃ bytes, c.source.bytes <+: bytes ∧ ⟨d.slot, a.value, bytes⟩ ∈ blocks

namespace Heap

variable {h : Heap} {b c : Block} {d : Device} {a : Address} {n : ℕ}

theorem eq_of_base (hb : b ∈ h.blocks) (hc : c ∈ h.blocks) (hbase : b.base = c.base) : b = c := by
  have hholds (x : Block) : x.holds x.base 0 = true := Block.holds_iff.mpr ⟨le_rfl, by omega⟩
  have hholds' : c.holds b.base 0 = true := by
    rw [hbase]
    exact hholds c
  exact eq_of_holds hb hc (hholds b) hholds'

theorem sizeAt?_eq_some_iff : h.sizeAt? d a = some n ↔
    ∃ b ∈ h.blocks, b.key = (d.slot, a.value) ∧ b.bytes.length = n := by
  rw [sizeAt?, Option.map_eq_some_iff]
  constructor
  · rintro ⟨b, hfind, hlength⟩
    have hfound := List.find?_some hfind
    rw [Bool.and_eq_true, beq_iff_eq, beq_iff_eq] at hfound
    exact ⟨b, List.mem_of_find?_eq_some hfind, Prod.ext hfound.1 hfound.2, hlength⟩
  · rintro ⟨b, hb, hkey, hlength⟩
    obtain ⟨howner, hbase⟩ := Prod.ext_iff.mp hkey
    cases hfind : h.blocks.find? fun b => b.owner == d.slot && b.base == a.value with
    | none =>
      have hnone := List.find?_eq_none.mp hfind b hb
      rw [Bool.and_eq_true, beq_iff_eq, beq_iff_eq] at hnone
      exact absurd ⟨howner, hbase⟩ hnone
    | some c =>
      have hfound := List.find?_some hfind
      rw [Bool.and_eq_true, beq_iff_eq, beq_iff_eq] at hfound
      have hsame := eq_of_base hb (List.mem_of_find?_eq_some hfind) (hbase.trans hfound.2.symm)
      exact ⟨c, rfl, hsame ▸ hlength⟩

end Heap

namespace Thing.Shows

variable {m : Machine} {blocks blocks' : List Block} {bs : Bytes} {t : Thing}

theorem read (h : t.Shows m.heap.blocks bs) : t.read m = some bs := by
  cases t with
  | buffer b =>
    subst h
    rfl
  | block d a =>
    have hsize : m.heap.sizeAt? d a = some bs.length :=
      Heap.sizeAt?_eq_some_iff.mpr ⟨_, h, rfl, rfl⟩
    have hread := Heap.copyFrom_base (d := d) (a := a) h rfl rfl le_rfl
    rw [Thing.read, hsize, Option.bind_some, hread, List.take_length]
    rfl
  | column c =>
    obtain ⟨source, site⟩ := c
    obtain ⟨rfl, hsite⟩ := h
    cases site with
    | host => rfl
    | device d a =>
      obtain ⟨bytes, hprefix, hmem⟩ := hsite d a rfl
      have hread := Heap.copyFrom_base (d := d) (a := a) hmem rfl rfl hprefix.length_le
      rw [← List.prefix_iff_eq_take.mp hprefix] at hread
      change (m.heap.copyFrom d a source.bytes.length).toOption = some source.bytes
      rw [hread]
      rfl

theorem mono (h : t.Shows blocks bs) (hkept : ∀ b ∈ blocks, t.key? = some b.key → b ∈ blocks') :
    t.Shows blocks' bs := by
  cases t with
  | buffer b => exact h
  | block d a => exact hkept _ h rfl
  | column c =>
    refine ⟨h.1, fun d a hsite => ?_⟩
    obtain ⟨bytes, hprefix, hmem⟩ := h.2 d a hsite
    exact ⟨bytes, hprefix, hkept _ hmem (by rw [key?, hsite]; rfl)⟩

theorem exists_block {key : ℕ × ℕ} (h : t.Shows blocks bs) (hkey : t.key? = some key) :
    ∃ b ∈ blocks, b.key = key := by
  cases t with
  | buffer b => cases hkey
  | block d a => exact ⟨_, h, Option.some.inj hkey⟩
  | column c =>
    obtain ⟨source, site⟩ := c
    cases site with
    | host => cases hkey
    | device d a =>
      obtain ⟨bytes, -, hmem⟩ := h.2 d a rfl
      exact ⟨_, hmem, Option.some.inj hkey⟩

end Thing.Shows

end KernelDispatch
