import KernelDispatch.Failure

/-!
# Host memory budget

Host memory is reserved before it is used and given back when it is dropped. A budget with a limit
refuses what would exceed it; a budget without one refuses nothing. The bytes in use are counted in
a word, modulo `2 ^ 64`: reservations whose sum is larger wrap around, and giving back what was
reserved restores the count in any case.
-/

namespace KernelDispatch

structure Budget where
  inUse : Word := 0
  limit : Option Nat := none
deriving DecidableEq, Repr

namespace Budget

variable (B : Budget)

def more (n : Nat) : Word := B.inUse + BitVec.ofNat 64 n

/-- Whether the count stays within the limit with `n` more bytes. -/
def admits (n : Nat) : Bool := B.limit.all fun limit => (B.more n).toNat ≤ limit

def reserve (n : Nat) : Except Failure Budget :=
  match B.limit with
  | none => .ok { B with inUse := B.more n }
  | some limit =>
    if (B.more n).toNat ≤ limit then .ok { B with inUse := B.more n }
    else .error (.memoryLimitExceeded n B.inUse.toNat limit)

def release (n : Nat) : Budget := { B with inUse := B.inUse - BitVec.ofNat 64 n }

theorem reserve_eq_ok_iff {n : Nat} {B' : Budget} :
    B.reserve n = .ok B' ↔ B.admits n = true ∧ B' = { B with inUse := B.more n } := by
  unfold reserve admits
  cases B.limit with
  | none => simp [eq_comm]
  | some limit => by_cases h : (B.more n).toNat ≤ limit <;> simp [h, eq_comm]

@[simp] theorem release_reserve (n : Nat) :
    ({ B with inUse := B.more n } : Budget).release n = B := by
  rw [release, more, BitVec.add_sub_cancel]

end Budget

end KernelDispatch
