import PkuwaProofs.Basic

namespace PkuwaProofs

def pkruFallback : BitVec 32 := 0x55555554#32

def setPkeyValue (old : BitVec 32) (pkey : UInt16) (prot : BitVec 32) : BitVec 32 :=
  let pkeyShift := pkey.toNat * 2
  let newPkruBits : BitVec 32 := 0
  let newPkruBits :=
    if prot &&& pkeyDisableAccess ≠ 0 then newPkruBits ||| pkeyDisableAccess else newPkruBits
  let newPkruBits :=
    if prot &&& pkeyDisableWrite ≠ 0 then newPkruBits ||| pkeyDisableWrite else newPkruBits
  let newPkruBits := newPkruBits <<< pkeyShift
  let oldPkru := if old = 0 then pkruFallback else old
  let oldPkru := oldPkru &&& ~~~((pkeyDisableAccess ||| pkeyDisableWrite) <<< pkeyShift)
  oldPkru ||| newPkruBits

theorem getLsbD_one (i : Nat) : (1#32).getLsbD i = decide (i = 0) := by
  rw [BitVec.getLsbD_ofNat]
  rcases i with _ | _ | i <;> simp [Nat.testBit_succ]

theorem getLsbD_two (i : Nat) : (2#32).getLsbD i = decide (i = 1) := by
  rw [BitVec.getLsbD_ofNat]
  rcases i with _ | _ | i <;> simp [Nat.testBit_succ]

theorem getLsbD_three (i : Nat) : (3#32).getLsbD i = decide (i < 2) := by
  rw [BitVec.getLsbD_ofNat]
  rcases i with _ | _ | i <;> simp [Nat.testBit_succ]

theorem and_one_eq_zero (x : BitVec 32) : x &&& 1#32 = 0#32 ↔ x.getLsbD 0 = false := by
  constructor
  · intro h
    simpa [getLsbD_one] using congrArg (·.getLsbD 0) h
  · intro h
    ext i
    simp only [BitVec.getLsbD_and, getLsbD_one]
    rcases i with _ | i <;> simp_all

theorem and_two_eq_zero (x : BitVec 32) : x &&& 2#32 = 0#32 ↔ x.getLsbD 1 = false := by
  constructor
  · intro h
    simpa [getLsbD_two] using congrArg (·.getLsbD 1) h
  · intro h
    ext i
    simp only [BitVec.getLsbD_and, getLsbD_two]
    rcases i with _ | _ | i <;> simp_all

theorem newPkruBits_eq (prot : BitVec 32) :
    (if prot &&& pkeyDisableWrite ≠ 0 then
      (if prot &&& pkeyDisableAccess ≠ 0 then 0 ||| pkeyDisableAccess else 0) ||| pkeyDisableWrite
     else if prot &&& pkeyDisableAccess ≠ 0 then 0 ||| pkeyDisableAccess else 0) =
      prot &&& 3#32 := by
  ext i
  simp only [pkeyDisableAccess, pkeyDisableWrite]
  by_cases h1 : prot.getLsbD 0 <;> by_cases h2 : prot.getLsbD 1 <;>
    simp [and_one_eq_zero, and_two_eq_zero, h1, h2, getLsbD_one, getLsbD_two, getLsbD_three] <;>
    rcases i with _ | _ | i <;> simp_all

theorem setPkeyValue_eq (old prot : BitVec 32) (pkey : UInt16) :
    setPkeyValue old pkey prot =
      ((if old = 0 then pkruFallback else old) &&& ~~~(3#32 <<< (pkey.toNat * 2))) |||
        ((prot &&& 3#32) <<< (pkey.toNat * 2)) := by
  rw [setPkeyValue, ← newPkruBits_eq]
  rfl

theorem getLsbD_setPkeyValue (old prot : BitVec 32) (pkey : UInt16) (i : Nat) :
    (setPkeyValue old pkey prot).getLsbD i =
      if i / 2 = pkey.toNat then decide (i < 32) && prot.getLsbD (i % 2)
      else (if old = 0 then pkruFallback else old).getLsbD i := by
  rw [setPkeyValue_eq]
  by_cases hi : i < 32
  · by_cases h : i / 2 = pkey.toNat
    · have h2 : i - pkey.toNat * 2 = i % 2 := by omega
      have h3 : ¬ i < pkey.toNat * 2 := by omega
      simp [h, h2, h3, hi, getLsbD_three, Nat.mod_lt]
    · have h5 : i < pkey.toNat * 2 ∨ ¬ i - pkey.toNat * 2 < 2 := by omega
      rcases h5 with h5 | h5 <;> simp [h, hi, h5, getLsbD_three]
  · simp [hi, BitVec.getLsbD_ge _ _ (Nat.le_of_not_lt hi)]

theorem setPkeyValue_bits (r prot : BitVec 32) (pkey : UInt16) (hk : pkey.toNat < 16) :
    (setPkeyValue r pkey prot).getLsbD (2 * pkey.toNat) =
        decide (prot &&& pkeyDisableAccess ≠ 0) ∧
      (setPkeyValue r pkey prot).getLsbD (2 * pkey.toNat + 1) =
        decide (prot &&& pkeyDisableWrite ≠ 0) ∧
      ∀ i < 32, i / 2 ≠ pkey.toNat →
        (setPkeyValue r pkey prot).getLsbD i =
          if r = 0 then pkruFallback.getLsbD i else r.getLsbD i := by
  have h0 : 2 * pkey.toNat / 2 = pkey.toNat := by omega
  have h1 : (2 * pkey.toNat + 1) / 2 = pkey.toNat := by omega
  refine ⟨?_, ?_, fun i _ hik => ?_⟩
  · rw [getLsbD_setPkeyValue, if_pos h0]
    simp [pkeyDisableAccess, and_one_eq_zero, show 2 * pkey.toNat < 32 by omega]
  · rw [getLsbD_setPkeyValue, if_pos h1]
    simp [pkeyDisableWrite, and_two_eq_zero, show 2 * pkey.toNat + 1 < 32 by omega, Nat.add_mod]
  · rw [getLsbD_setPkeyValue, if_neg hik]
    split <;> rfl

theorem setPkeyValue_setPkeyValue {old prot : BitVec 32} {pkey : UInt16}
    (h : setPkeyValue old pkey prot ≠ 0) :
    setPkeyValue (setPkeyValue old pkey prot) pkey prot = setPkeyValue old pkey prot := by
  ext i
  rw [getLsbD_setPkeyValue _ _ _ i, if_neg h]
  split_ifs with hik
  · rw [getLsbD_setPkeyValue, if_pos hik]
  · rfl

theorem setPkeyValue_zero_ne (pkey : UInt16) (prot : BitVec 32) : setPkeyValue 0 pkey prot ≠ 0 := by
  intro h
  obtain ⟨j, hj, hb⟩ : ∃ j, j / 2 ≠ pkey.toNat ∧ pkruFallback.getLsbD j = true :=
    if hk : pkey.toNat = 1 then ⟨4, by omega, rfl⟩ else ⟨2, by omega, rfl⟩
  have hj0 := congrArg (·.getLsbD j) h
  simp only [getLsbD_setPkeyValue, if_neg hj] at hj0
  simp [hb] at hj0

theorem setPkeyValue_eq_zero (r prot : BitVec 32) (pkey : UInt16) :
    setPkeyValue r pkey prot = 0 ↔ r ≠ 0 ∧ (∀ i < 32, i / 2 ≠ pkey.toNat → r.getLsbD i = false) ∧
      prot &&& pkeyDisableAccess = 0 ∧ prot &&& pkeyDisableWrite = 0 := by
  constructor
  · intro h
    have hr : r ≠ 0 := fun h0 => setPkeyValue_zero_ne pkey prot (h0 ▸ h)
    have hbit (i : Nat) : (setPkeyValue r pkey prot).getLsbD i = false := by simp [h]
    have hout : ∀ i < 32, i / 2 ≠ pkey.toNat → r.getLsbD i = false := fun i _ hi => by
      simpa only [getLsbD_setPkeyValue, if_neg hi, if_neg hr] using hbit i
    refine ⟨hr, hout, ?_⟩
    by_cases hk : pkey.toNat < 16
    · obtain ⟨ha, hw, -⟩ := setPkeyValue_bits r prot pkey hk
      rw [hbit] at ha hw
      exact ⟨of_decide_eq_false ha.symm |> not_not.mp, of_decide_eq_false hw.symm |> not_not.mp⟩
    · exact absurd (BitVec.eq_of_getLsbD_eq fun i => by
        simpa using hout i.val i.isLt (by omega)) hr
  · rintro ⟨hr, hout, ha, hw⟩
    replace ha := (and_one_eq_zero prot).mp ha
    replace hw := (and_two_eq_zero prot).mp hw
    apply BitVec.eq_of_getLsbD_eq
    intro i
    rw [getLsbD_setPkeyValue, if_neg hr, show (0 : BitVec 32).getLsbD i = false from
      BitVec.getLsbD_zero]
    split_ifs with hi
    · rcases Nat.mod_two_eq_zero_or_one i with h2 | h2 <;> simp [h2, ha, hw]
    · exact hout i i.isLt hi

namespace Core

def rdpkru (s : Core) : BitVec 32 := s.pkru

def wrpkru (s : Core) (pkru : BitVec 32) : Core :=
  { s with pkru := pkru, trace := s.trace ++ [.wrpkru pkru] }

def setPkey (s : Core) (pkey : UInt16) (prot : BitVec 32) : Core :=
  s.wrpkru (setPkeyValue s.rdpkru pkey prot)

@[simp] theorem setPkey_keys (s : Core) (pkey : UInt16) (prot : BitVec 32) :
    (s.setPkey pkey prot).keys = s.keys := rfl

@[simp] theorem setPkey_registeredPKUCalls (s : Core) (pkey : UInt16) (prot : BitVec 32) :
    (s.setPkey pkey prot).registeredPKUCalls = s.registeredPKUCalls := rfl

@[simp] theorem setPkey_pkru (s : Core) (pkey : UInt16) (prot : BitVec 32) :
    (s.setPkey pkey prot).pkru = setPkeyValue s.pkru pkey prot := rfl

@[simp] theorem setPkey_trace (s : Core) (pkey : UInt16) (prot : BitVec 32) :
    (s.setPkey pkey prot).trace = s.trace ++ [.wrpkru (setPkeyValue s.pkru pkey prot)] := rfl

theorem setPkey_bits (s : Core) (pkey : UInt16) (prot : BitVec 32) (hk : pkey.toNat < 16) :
    ∃ v : BitVec 32, s.setPkey pkey prot = s.wrpkru v ∧
      v.getLsbD (2 * pkey.toNat) = decide (prot &&& pkeyDisableAccess ≠ 0) ∧
      v.getLsbD (2 * pkey.toNat + 1) = decide (prot &&& pkeyDisableWrite ≠ 0) ∧
      ∀ i < 32, i / 2 ≠ pkey.toNat →
        v.getLsbD i = if s.rdpkru = 0 then pkruFallback.getLsbD i else s.rdpkru.getLsbD i :=
  ⟨_, rfl, setPkeyValue_bits s.rdpkru prot pkey hk⟩

theorem setPkey_bits_key15 :
    (15 : UInt16).toNat < 16 ∧
    ∃ v : BitVec 32,
      (zero 0xC0000001#32).setPkey 15 pkeyDisableWrite = (zero 0xC0000001#32).wrpkru v ∧
      v.getLsbD (2 * (15 : UInt16).toNat) = decide (pkeyDisableWrite &&& pkeyDisableAccess ≠ 0) ∧
      v.getLsbD (2 * (15 : UInt16).toNat + 1) = decide (pkeyDisableWrite &&& pkeyDisableWrite ≠ 0) ∧
      ∀ i < 32, i / 2 ≠ (15 : UInt16).toNat →
        v.getLsbD i = if (zero 0xC0000001#32).rdpkru = 0 then pkruFallback.getLsbD i
          else (zero 0xC0000001#32).rdpkru.getLsbD i :=
  ⟨by decide, setPkey_bits _ 15 pkeyDisableWrite (by decide)⟩

theorem setPkey_twice (s : Core) (pkey : UInt16) (prot : BitVec 32) :
    ((s.setPkey pkey prot).pkru ≠ 0 →
      ((s.setPkey pkey prot).setPkey pkey prot).pkru = (s.setPkey pkey prot).pkru) ∧
    ((s.setPkey pkey prot).pkru = 0 →
      ((s.setPkey pkey prot).setPkey pkey prot).pkru = setPkeyValue 0 pkey prot ∧
        setPkeyValue 0 pkey prot ≠ (s.setPkey pkey prot).pkru) ∧
    ((s.setPkey pkey prot).pkru = 0 ↔ s.rdpkru ≠ 0 ∧
      (∀ i < 32, i / 2 ≠ pkey.toNat → s.rdpkru.getLsbD i = false) ∧
      prot &&& pkeyDisableAccess = 0 ∧ prot &&& pkeyDisableWrite = 0) := by
  simp only [setPkey_pkru]
  exact ⟨setPkeyValue_setPkeyValue, fun h => ⟨by rw [h], h ▸ setPkeyValue_zero_ne pkey prot⟩,
    setPkeyValue_eq_zero _ _ _⟩

theorem setPkey_twice_pkruFallback :
    ((zero pkruFallback).setPkey 1 3).pkru ≠ 0 ∧
    (((zero pkruFallback).setPkey 1 3).setPkey 1 3).pkru = ((zero pkruFallback).setPkey 1 3).pkru ∧
    ((zero 1#32).setPkey 0 0).pkru = 0 ∧
    (((zero 1#32).setPkey 0 0).setPkey 0 0).pkru = setPkeyValue 0 0 0 ∧
    setPkeyValue 0 0 0 ≠ ((zero 1#32).setPkey 0 0).pkru ∧
    (zero 1#32).rdpkru ≠ 0 ∧
    (∀ i < 32, i / 2 ≠ (0 : UInt16).toNat → (zero 1#32).rdpkru.getLsbD i = false) ∧
    (0 : BitVec 32) &&& pkeyDisableAccess = 0 ∧ (0 : BitVec 32) &&& pkeyDisableWrite = 0 :=
  have h1 := setPkey_twice (zero pkruFallback) 1 3
  have h0 := setPkey_twice (zero 1#32) 0 0
  have hz : ((zero 1#32).setPkey 0 0).pkru = 0 := by decide
  ⟨by decide, h1.1 (by decide), hz, (h0.2.1 hz).1, (h0.2.1 hz).2, h0.2.2.mp hz⟩

theorem setPkey_twice_pkruOne :
    ((zero 1#32).setPkey 0 0).pkru = 0 ∧ (((zero 1#32).setPkey 0 0).setPkey 0 0).pkru = 0x55555554#32 :=
  ⟨by decide, by decide⟩

end Core

end PkuwaProofs
