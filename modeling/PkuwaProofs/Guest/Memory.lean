import PkuwaProofs.Guest.Step

namespace PkuwaProofs.Guest

theorem getLsbD_4095 (i : Nat) : (4095#32).getLsbD i = decide (i < 12) := by
  have h : Nat.testBit 4095 i = decide (i < 12) := Nat.testBit_two_pow_sub_one 12 i
  rw [BitVec.getLsbD_ofNat, h]
  by_cases hi : i < 12
  · simp [hi, show i < 32 by omega]
  · simp [hi]

theorem and_not_4095 (x : BitVec 32) : (x &&& ~~~4095#32) = (x >>> 12) <<< 12 := by
  ext i
  simp only [BitVec.getLsbD_and, BitVec.getLsbD_not, getLsbD_4095, BitVec.getLsbD_shiftLeft,
    BitVec.getLsbD_ushiftRight, i.isLt, decide_True, Bool.true_and]
  by_cases h : i.val < 12
  · simp [h]
  · simp [h, show 12 + (i.val - 12) = i.val by omega]

theorem toNat_and_not_4095 (x : BitVec 32) : (x &&& ~~~4095#32).toNat = x.toNat / 4096 * 4096 := by
  rw [and_not_4095, BitVec.toNat_shiftLeft, BitVec.toNat_ushiftRight, Nat.shiftLeft_eq,
    Nat.shiftRight_eq_div_pow]
  have := x.isLt
  omega

theorem pageAlign_toNat (S : BitVec 32) :
    (State.pageAlign S).toNat = (S.toNat + 4095) % 2 ^ 32 / 4096 * 4096 := by
  have h : BitVec.ofNat 32 pageSizePKU - 1 = 4095#32 := rfl
  rw [State.pageAlign, h, toNat_and_not_4095, BitVec.toNat_add]
  rfl

theorem pageAlign_spec (S : BitVec 32) :
    (S.toNat ≤ 2 ^ 32 - pageSizePKU →
      (State.pageAlign S).toNat % pageSizePKU = 0 ∧ S.toNat ≤ (State.pageAlign S).toNat ∧
        (State.pageAlign S).toNat < S.toNat + pageSizePKU) ∧
    (2 ^ 32 - pageSizePKU < S.toNat → State.pageAlign S = 0) := by
  have h := pageAlign_toNat S
  have hS := S.isLt
  simp only [pageSizePKU]
  refine ⟨fun hle => ?_, fun hgt => BitVec.eq_of_toNat_eq ?_⟩
  · rw [h]
    omega
  · rw [h]
    show _ = 0
    omega

variable {s : State}

theorem naiveMmap_spec (bytes : BitVec 32) (ptr : Nat) :
    (s.naiveMmap bytes ptr).1 = ptr ∧
    ∃ size : BitVec 32, (s.naiveMmap bytes ptr).2.trace = s.trace ++ [.pkuMalloc size.toNat] ∧
      (s.naiveMmap bytes ptr).2.gsMmapMemory = s.gsMmapMemory + size ∧
      (bytes.toNat ≤ 2 ^ 32 - pageSizePKU → size.toNat % pageSizePKU = 0 ∧
        bytes.toNat ≤ size.toNat ∧ size.toNat < bytes.toNat + pageSizePKU) ∧
      (2 ^ 32 - pageSizePKU < bytes.toNat → size = 0) :=
  ⟨rfl, State.pageAlign bytes, rfl, rfl, pageAlign_spec bytes⟩

theorem naiveMmap_wraps :
    Reachable (initial 0) ∧
      ((initial 0).naiveMmap 0xFFFFFFFF#32 0).2.trace = [.pkuMalloc 0] ∧
      (((initial 0).naiveMmap 0xFFFFF000#32 0).2.naiveMmap 0x1000#32 0).2.gsMmapMemory = 0 :=
  ⟨.initial 0, rfl, rfl⟩

theorem pkuPkeyMprotect_requests (hook : Hook) (addr len : Nat) (prot pkey : Int) :
    (s.pkuPkeyMprotect hook addr len prot pkey).1 = 0 ∧
    ∃ reqs : List Buf,
      (s.pkuPkeyMprotect hook addr len prot pkey).2.trace = s.trace ++ reqs.map .wasiCall ∧
      ∀ req ∈ reqs, req = State.mmapRequest 0 len prot (0x2 ||| 0x20 : Nat) ∨
        ∃ a, req = protectRequest [0x01, 0x20] a len 0 := by
  refine ⟨rfl, ?_⟩
  simp only [State.pkuPkeyMprotect, State.pkuMprotect]
  split_ifs
  · refine ⟨[State.mmapRequest 0 len prot (0x2 ||| 0x20 : Nat),
      protectRequest [0x01, 0x20] (s.pkuMmap hook 0 len prot (0x2 ||| 0x20 : Nat) (-1) 0).1 len 0],
      by simp [State.domainProtect, State.pkuMmap, Core.domainProtectWith, State.withCore], ?_⟩
    intro req h
    rcases List.mem_cons.mp h with rfl | h
    · exact .inl rfl
    · exact .inr ⟨_, List.mem_singleton.mp h⟩
  · exact ⟨[State.mmapRequest 0 len prot (0x2 ||| 0x20 : Nat)], by simp [State.pkuMmap], by simp⟩
  · exact ⟨[protectRequest [0x01, 0x20] s.mmapAddr len 0],
      by simp [State.domainProtect, Core.domainProtectWith, State.withCore],
      fun _ h => .inr ⟨_, List.mem_singleton.mp h⟩⟩
  · exact ⟨[], by simp, by simp⟩

theorem pkuPkeyMprotect_unsent (hook : Hook) :
    Reachable (initial 0) ∧ (initial 0).pkuPkeyMprotect hook 0x1000 4096 1 3 = (0, initial 0) :=
  ⟨.initial 0, rfl⟩

end PkuwaProofs.Guest
