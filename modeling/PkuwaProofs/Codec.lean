import PkuwaProofs.Guest.Api

namespace PkuwaProofs

theorem storeBE_apply (buf : Buf) (off temp n : Nat) (j : Fin 12) :
    storeBE buf off temp n j =
      if off ≤ j.val ∧ j.val < off + n then UInt8.ofNat (temp / 256 ^ (off + n - 1 - j.val) % 256)
      else buf j := by
  induction n generalizing buf temp with
  | zero => rw [storeBE, if_neg (by omega)]
  | succ n ih =>
    rw [storeBE, ih, setByte_apply]
    by_cases hj : off ≤ j.val ∧ j.val < off + n
    · have he : off + (n + 1) - 1 - j.val = (off + n - 1 - j.val) + 1 := by omega
      rw [if_pos hj, if_pos (by omega), he, Nat.pow_succ, Nat.div_div_eq_div_mul, Nat.mul_comm 256]
    · rw [if_neg hj]
      by_cases hn : j.val = off + n
      · rw [if_pos hn, if_pos (by omega), show off + (n + 1) - 1 - j.val = 0 by omega]
        simp
      · rw [if_neg hn, if_neg (by omega)]

theorem loadBE_four (buf : Buf) (off : Nat) :
    loadBE buf 0 off 4 = (getByte buf off).toNat * 2 ^ 24 + (getByte buf (off + 1)).toNat * 2 ^ 16 +
      (getByte buf (off + 2)).toNat * 2 ^ 8 + (getByte buf (off + 3)).toNat := by
  simp only [loadBE, Nat.add_assoc, Nat.reduceAdd]
  omega

theorem loadBE_four_lt (buf : Buf) (off : Nat) : loadBE buf 0 off 4 < 2 ^ 32 := by
  have hb : ∀ i, (getByte buf i).toNat < 256 := fun i => (getByte buf i).toNat_lt_size
  have := hb off; have := hb (off + 1); have := hb (off + 2); have := hb (off + 3)
  rw [loadBE_four]
  omega

theorem getByte_storeBE (buf : Buf) (off x k : Nat) (hk : k < 4) (h : off + 4 ≤ 12) :
    (getByte (storeBE buf off x 4) (off + k)).toNat = x / 256 ^ (3 - k) % 256 := by
  rw [getByte, dif_pos (by omega), storeBE_apply, if_pos (by simp; omega),
    UInt8.toNat_ofNat_of_lt (Nat.mod_lt _ (by decide)), show off + 4 - 1 - (off + k) = 3 - k by omega]

theorem loadBE_storeBE (buf : Buf) (off x : Nat) (h : off + 4 ≤ 12) :
    loadBE (storeBE buf off x 4) 0 off 4 = x % 2 ^ 32 := by
  rw [loadBE_four]
  have h0 := getByte_storeBE buf off x 0 (by omega) h
  have h1 := getByte_storeBE buf off x 1 (by omega) h
  have h2 := getByte_storeBE buf off x 2 (by omega) h
  have h3 := getByte_storeBE buf off x 3 (by omega) h
  simp only [Nat.add_zero] at h0
  rw [h0, h1, h2, h3]
  simp only [Nat.sub_self, Nat.pow_zero, Nat.div_one]
  omega

theorem loadBE_congr {buf buf' : Buf} (n : Nat) :
    ∀ temp off, (∀ k < n, getByte buf (off + k) = getByte buf' (off + k)) →
      loadBE buf temp off n = loadBE buf' temp off n := by
  induction n with
  | zero => intro temp off _; rfl
  | succ n ih =>
    intro temp off h
    have h0 : getByte buf off = getByte buf' off := h 0 (by omega)
    rw [loadBE, loadBE, h0]
    exact ih _ _ fun k hk => by simpa only [Nat.add_assoc, Nat.add_comm 1] using h (k + 1) (by omega)

theorem getByte_setByte (buf : Buf) (i k : Nat) (v : UInt8) (h : k ≠ i) :
    getByte (setByte buf i v) k = getByte buf k := by
  unfold getByte
  split_ifs
  · exact if_neg h
  · rfl

theorem getByte_storeBE_outside (buf : Buf) (off x k : Nat) (h : k < off ∨ off + 4 ≤ k) :
    getByte (storeBE buf off x 4) k = getByte buf k := by
  unfold getByte
  split_ifs
  · rw [storeBE_apply, if_neg (by simp only; omega)]
  · rfl

theorem readPKRUAcc_emod (buf : Buf) : readPKRUAcc buf % 2 ^ 32 = (loadBE buf 0 3 4 : Int) := by
  rw [readPKRUAcc, BitVec.toInt_ofNat, show (2 : Int) ^ 32 = ((2 ^ 32 : Nat) : Int) from rfl,
    Int.bmod_emod]
  exact Int.emod_eq_of_lt (Int.ofNat_nonneg _) (by exact_mod_cast loadBE_four_lt buf 3)

theorem loadBE_setByte (buf : Buf) (off i : Nat) (v : UInt8) (h : i < off ∨ off + 4 ≤ i) :
    loadBE (setByte buf i v) 0 off 4 = loadBE buf 0 off 4 :=
  loadBE_congr 4 0 off fun _ _ => getByte_setByte _ _ _ _ (by omega)

theorem loadBE_storeBE_of_disjoint (buf : Buf) (off off' x : Nat) (h : off + 4 ≤ off' ∨ off' + 4 ≤ off) :
    loadBE (storeBE buf off' x 4) 0 off 4 = loadBE buf 0 off 4 :=
  loadBE_congr 4 0 off fun _ _ => getByte_storeBE_outside _ _ _ _ (by omega)

def intMax : Int := 2 ^ 31 - 1

def intMin : Int := -2 ^ 31

def intShiftLeft (x : Int) (n : Nat) : Option Int :=
  if 0 ≤ x ∧ n < 32 ∧ x * 2 ^ n ≤ intMax then some (x * 2 ^ n) else none

def intAdd (x y : Int) : Option Int :=
  if intMin ≤ x + y ∧ x + y ≤ intMax then some (x + y) else none

/-- The loop of `ReadPKRU` and of the native `ReadPkru` on `int pkru`:
`for (i = off; i < off + n; ++i) { pkru <<= 8; pkru += buf[i]; }`. -/
def readPKRUInt (buf : Buf) (pkru : Int) (off : Nat) : Nat → Option Int
  | 0 => some pkru
  | n + 1 => do
    let pkru ← intShiftLeft pkru 8
    let pkru ← intAdd pkru (getByte buf off).toNat
    readPKRUInt buf pkru (off + 1) n

theorem intShiftLeft_isSome (x : Int) (n : Nat) :
    (intShiftLeft x n).isSome ↔ 0 ≤ x ∧ n < 32 ∧ x * 2 ^ n ≤ intMax := by
  unfold intShiftLeft
  split_ifs with h <;> simp [h]

theorem intShiftLeft_eq_some {x y : Int} {n : Nat} (h : intShiftLeft x n = some y) : y = x * 2 ^ n := by
  unfold intShiftLeft at h
  split_ifs at h
  exact (Option.some.inj h).symm

theorem rangeFields_decode (buf : Buf) (addr length : Nat) (b10 b11 : UInt8) :
    let req := setByte (setByte (storeBE (storeBE buf 2 addr 4) 6 length 4) 10 b10) 11 b11
    loadBE req 0 2 4 = addr % 2 ^ 32 ∧ loadBE req 0 6 4 = length % 2 ^ 32 := by
  simp only [loadBE_setByte _ 2 _ _ (by omega : 11 < 2 ∨ 2 + 4 ≤ 11),
    loadBE_setByte _ 2 _ _ (by omega : 10 < 2 ∨ 2 + 4 ≤ 10),
    loadBE_setByte _ 6 _ _ (by omega : 11 < 6 ∨ 6 + 4 ≤ 11),
    loadBE_setByte _ 6 _ _ (by omega : 10 < 6 ∨ 6 + 4 ≤ 10)]
  exact ⟨by rw [loadBE_storeBE_of_disjoint _ _ _ _ (by omega), loadBE_storeBE _ _ _ (by omega)],
    loadBE_storeBE _ _ _ (by omega)⟩

end PkuwaProofs
