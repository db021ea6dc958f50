import PkuwaProofs.Codec
import PkuwaProofs.Transport

namespace PkuwaProofs

def setPkeyShifts (pkey : UInt16) (prot : BitVec 32) : Option (Int × Int) := do
  let pkeyShift := pkey.toNat * 2
  let newPkruBits : Nat := 0
  let newPkruBits :=
    if prot &&& pkeyDisableAccess ≠ 0 then newPkruBits ||| pkeyDisableAccess.toNat else newPkruBits
  let newPkruBits :=
    if prot &&& pkeyDisableWrite ≠ 0 then newPkruBits ||| pkeyDisableWrite.toNat else newPkruBits
  let newPkruBits ← intShiftLeft newPkruBits pkeyShift
  let mask ← intShiftLeft (pkeyDisableAccess ||| pkeyDisableWrite).toNat pkeyShift
  some (newPkruBits, mask)

theorem ofInt_shiftLeft (x n : Nat) :
    BitVec.ofInt 32 ((x : Int) * 2 ^ n) = BitVec.ofNat 32 x <<< n := by
  rw [show (x : Int) * 2 ^ n = ((x * 2 ^ n : Nat) : Int) by rw [Int.natCast_mul, Int.natCast_pow]; rfl,
    BitVec.ofInt_natCast]
  apply BitVec.eq_of_toNat_eq
  rw [BitVec.toNat_shiftLeft, BitVec.toNat_ofNat, BitVec.toNat_ofNat, Nat.shiftLeft_eq, Nat.mod_mul_mod]

theorem setPkeyShifts_shape (pkey : UInt16) (prot : BitVec 32) :
    ∃ nb : Nat, nb ≤ 3 ∧
      setPkeyShifts pkey prot =
        ((intShiftLeft nb (pkey.toNat * 2)).bind fun a =>
          (intShiftLeft 3 (pkey.toNat * 2)).bind fun m => some (a, m)) ∧
      ∀ old, setPkeyValue old pkey prot =
        ((if old = 0 then pkruFallback else old) &&& ~~~(BitVec.ofNat 32 3 <<< (pkey.toNat * 2))) |||
          BitVec.ofNat 32 nb <<< (pkey.toNat * 2) := by
  unfold setPkeyShifts setPkeyValue
  split_ifs <;> exact ⟨_, by decide, rfl, fun _ => rfl⟩

theorem setPkeyShifts_isSome (pkey : UInt16) (prot : BitVec 32) :
    (setPkeyShifts pkey prot).isSome ↔ pkey.toNat < 15 := by
  obtain ⟨nb, hnb, hs, -⟩ := setPkeyShifts_shape pkey prot
  have hbind : ∀ (a b : Option Int),
      (a.bind fun x => b.bind fun y => some (x, y)).isSome ↔ a.isSome ∧ b.isSome := by
    intro a b; cases a <;> cases b <;> simp
  rw [hs, hbind, intShiftLeft_isSome, intShiftLeft_isSome]
  have ht : (2 : Int) ^ (pkey.toNat * 2) = ((2 ^ (pkey.toNat * 2) : Nat) : Int) :=
    (Int.natCast_pow 2 _).symm
  have h28 : pkey.toNat < 15 → 2 ^ (pkey.toNat * 2) ≤ 2 ^ 28 := fun h =>
    Nat.pow_le_pow_right (by decide) (by omega)
  have h30 : 15 ≤ pkey.toNat → 2 ^ 30 ≤ 2 ^ (pkey.toNat * 2) := fun h =>
    Nat.pow_le_pow_right (by decide) (by omega)
  have hnbt : nb * 2 ^ (pkey.toNat * 2) ≤ 3 * 2 ^ (pkey.toNat * 2) := Nat.mul_le_mul_right _ hnb
  rw [ht, ← Int.natCast_mul]
  simp only [intMax]
  omega

theorem setPkeyValue_of_shifts {pkey : UInt16} {prot : BitVec 32} {newPkruBits mask : Int}
    (h : setPkeyShifts pkey prot = some (newPkruBits, mask)) (old : BitVec 32) :
    setPkeyValue old pkey prot =
      ((if old = 0 then pkruFallback else old) &&& ~~~(BitVec.ofInt 32 mask)) |||
        BitVec.ofInt 32 newPkruBits := by
  obtain ⟨nb, -, hs, hv⟩ := setPkeyShifts_shape pkey prot
  rw [hs] at h
  obtain ⟨a, ha, h⟩ := Option.bind_eq_some.mp h
  obtain ⟨m, hm, h⟩ := Option.bind_eq_some.mp h
  obtain ⟨rfl, rfl⟩ := Prod.mk.inj (Option.some.inj h)
  rw [intShiftLeft_eq_some ha, intShiftLeft_eq_some hm, ofInt_shiftLeft nb,
    show ((3 : Int) * 2 ^ (pkey.toNat * 2)) = ((3 : Nat) : Int) * 2 ^ (pkey.toNat * 2) from rfl,
    ofInt_shiftLeft 3, hv]

end PkuwaProofs

namespace PkuwaProofs.Guest

def grantedFifteen : State :=
  ((initial 0).pkuCreateDomain (replyHook (initBuf [0x01, 0x21, 15])) 0).2

theorem signedOverflow_key15 :
    Reachable grantedFifteen ∧ (grantedFifteen.keys 15).used = true ∧
      (grantedFifteen.keys 15).pkey = 15 ∧
      (∀ prot, setPkeyShifts (grantedFifteen.keys 15).pkey prot = none) ∧
      readPKRUInt (initBuf [0x0F, 0x01, 0xEE, 0x80]) 0 3 4 = none :=
  ⟨.step _ (.pkuCreateDomain 0) (.initial 0) rfl, rfl, rfl,
    fun prot => Option.not_isSome_iff_eq_none.mp fun h =>
      absurd ((setPkeyShifts_isSome _ prot).mp h) (by decide),
    by decide⟩

end PkuwaProofs.Guest
