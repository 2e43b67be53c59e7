/-!
# Byte sequences

Memory on either side of the dispatcher is a list of bytes, lowest address first. A number is
stored least significant byte first. The main statements say that the stored form of a number
reads back as that number and that overwriting a stretch of bytes changes that stretch only.
-/

namespace KernelDispatch

abbrev Bytes := List UInt8

/-- The unit in which literals, output values and host storage are laid out. -/
abbrev Word := BitVec 64

def slotBytes : Nat := 8

/-- Words needed to hold `n` bytes. -/
def slotsFor (n : Nat) : Nat := (n + 7) / 8

theorem le_slotsFor_mul (n : Nat) : n ≤ slotsFor n * 8 := by
  unfold slotsFor; omega

@[simp] theorem slotsFor_mul_eight (k : Nat) : slotsFor (k * 8) = k := by
  unfold slotsFor; omega

/-- The `n` low bytes of `v`, least significant first. -/
def littleEndian : Nat → Nat → Bytes
  | 0, _ => []
  | n + 1, v => UInt8.ofNat v :: littleEndian n (v / 256)

/-- The number whose bytes these are, least significant first. -/
def ofLittleEndian : Bytes → Nat
  | [] => 0
  | b :: bs => b.toNat + 256 * ofLittleEndian bs

@[simp] theorem length_littleEndian (n v : Nat) : (littleEndian n v).length = n := by
  induction n generalizing v with
  | zero => rfl
  | succ n ih => simp [littleEndian, ih]

theorem ofLittleEndian_littleEndian (n v : Nat) :
    ofLittleEndian (littleEndian n v) = v % 1 <<< (8 * n) := by
  induction n generalizing v with
  | zero => simp [littleEndian, ofLittleEndian, Nat.mod_one]
  | succ n ih =>
    have low : (UInt8.ofNat v).toNat = v % 256 := by simp
    have wider : 1 <<< (8 * (n + 1)) = 256 * 1 <<< (8 * n) := by
      rw [Nat.mul_add, Nat.shiftLeft_add, Nat.shiftLeft_eq _ (8 * 1), Nat.mul_comm]
    rw [littleEndian, ofLittleEndian, ih, low, wider, Nat.mod_mul]

theorem ofLittleEndian_lt (bs : Bytes) : ofLittleEndian bs < 1 <<< (8 * bs.length) := by
  induction bs with
  | nil => simp [ofLittleEndian]
  | cons b bs ih =>
    have hb : b.toNat < 256 := b.toNat_lt
    rw [ofLittleEndian, List.length_cons, Nat.mul_add, Nat.shiftLeft_add,
      Nat.shiftLeft_eq _ (8 * 1)]
    omega

theorem littleEndian_ofLittleEndian (bs : Bytes) :
    littleEndian bs.length (ofLittleEndian bs) = bs := by
  induction bs with
  | nil => rfl
  | cons b bs ih =>
    have hb : b.toNat < 256 := b.toNat_lt
    have low : UInt8.ofNat (b.toNat + 256 * ofLittleEndian bs) = b :=
      UInt8.toNat_inj.mp (by simp)
    have high : (b.toNat + 256 * ofLittleEndian bs) / 256 = ofLittleEndian bs := by omega
    rw [ofLittleEndian, List.length_cons, littleEndian, low, high, ih]

def bytesOf {k : Nat} (n : Nat) (v : BitVec k) : Bytes := littleEndian n v.toNat

@[simp] theorem length_bytesOf {k : Nat} (n : Nat) (v : BitVec k) :
    (bytesOf n v).length = n := length_littleEndian n v.toNat

/-- The bit vector stored in these bytes, the first byte lowest. -/
def bitsAt (k : Nat) (bs : Bytes) : BitVec k := BitVec.ofNat k (ofLittleEndian bs)

theorem bitsAt_bytesOf (n : Nat) (v : BitVec (8 * n)) : bitsAt (8 * n) (bytesOf n v) = v := by
  apply BitVec.eq_of_toNat_eq
  rw [bitsAt, bytesOf, BitVec.toNat_ofNat, ofLittleEndian_littleEndian, Nat.one_shiftLeft,
    Nat.mod_mod, Nat.mod_eq_of_lt v.isLt]

namespace Word

/-- The bound below which a number is the same read as a signed and as an unsigned word. -/
def signedBound : Nat := UInt64.size / 2

def bytes (w : Word) : Bytes := bytesOf 8 w

def ofBytes (bs : Bytes) : Word := bitsAt 64 bs

@[simp] theorem length_bytes (w : Word) : w.bytes.length = 8 := length_bytesOf 8 w

@[simp] theorem ofBytes_bytes (w : Word) : ofBytes w.bytes = w := bitsAt_bytesOf 8 w

end Word

/-- The `len` bytes from `offset` on, or as many of them as there are. -/
def slice (bs : Bytes) (offset len : Nat) : Bytes := (bs.drop offset).take len

/-- The bytes with `src` in place of the stretch that starts at `offset`. What does not fit into
the sequence is refused as a whole, so the length never changes. -/
def overwrite (bs : Bytes) (offset : Nat) (src : Bytes) : Bytes :=
  if offset + src.length ≤ bs.length then
    bs.take offset ++ (src ++ bs.drop (offset + src.length))
  else bs

@[simp] theorem length_overwrite (bs : Bytes) (offset : Nat) (src : Bytes) :
    (overwrite bs offset src).length = bs.length := by
  unfold overwrite
  split
  · simp; omega
  · rfl

theorem length_slice {bs : Bytes} {offset len : Nat} (h : offset + len ≤ bs.length) :
    (slice bs offset len).length = len := by
  simp [slice]; omega

theorem getElem?_overwrite_of_outside {bs : Bytes} {offset : Nat} {src : Bytes} {i : Nat}
    (h : i < offset ∨ offset + src.length ≤ i) : (overwrite bs offset src)[i]? = bs[i]? := by
  unfold overwrite
  split
  · rename_i fits
    rcases h with before | after
    · rw [List.getElem?_append_left (by simp; omega), List.getElem?_take_of_lt before]
    · rw [List.getElem?_append_right (by simp; omega)]
      rw [List.getElem?_append_right (by simp; omega), List.getElem?_drop]
      congr 1
      simp
      omega
  · rfl

theorem getElem?_overwrite_of_inside {bs : Bytes} {offset : Nat} {src : Bytes} {i : Nat}
    (fits : offset + src.length ≤ bs.length) (h : offset ≤ i) (h' : i < offset + src.length) :
    (overwrite bs offset src)[i]? = src[i - offset]? := by
  rw [overwrite, if_pos fits, List.getElem?_append_right (by simp; omega)]
  rw [List.getElem?_append_left (by simp; omega)]
  congr 1
  simp
  omega

/-- The words that fill these bytes, in order; bytes beyond the last whole word are left out. -/
def wordsOf (bs : Bytes) : List Word :=
  let region := bs.toArray
  (List.range (bs.length / 8)).map fun i =>
    Word.ofBytes (region.extract (8 * i) (8 * i + 8)).toList

@[simp] theorem length_wordsOf (bs : Bytes) : (wordsOf bs).length = bs.length / 8 := by
  simp [wordsOf]

theorem wordsOf_eq (bs : Bytes) :
    wordsOf bs = (List.range (bs.length / 8)).map fun i => Word.ofBytes (slice bs (8 * i) 8) := by
  simp [wordsOf, slice]

def hexDigit (n : Nat) : Char :=
  if n < 10 then Char.ofNat (48 + n) else Char.ofNat (87 + n)

def hexText (bs : Bytes) : String :=
  String.ofList (bs.flatMap fun b => [hexDigit (b.toNat / 16), hexDigit (b.toNat % 16)])

def hexNumber (n : Nat) : String := String.ofList (Nat.toDigits 16 n)

end KernelDispatch
