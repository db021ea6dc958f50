import PkuwaProofs.Guest.Rights

namespace PkuwaProofs.Guest

def grants (old new : BitVec 32) (k : Nat) : Bool :=
  (canAccess new k && !canAccess old k) || (canWrite new k && !canWrite old k)

def revokes (old new : BitVec 32) (k : Nat) : Bool := grants new old k

theorem grants_of_bits {old new : BitVec 32} {k : Nat} (ha : new.getLsbD (2 * k) = old.getLsbD (2 * k))
    (hw : new.getLsbD (2 * k + 1) = old.getLsbD (2 * k + 1)) : grants old new k = false := by
  simp only [grants, canAccess, canWrite, ha, hw]
  cases old.getLsbD (2 * k) <;> cases old.getLsbD (2 * k + 1) <;> rfl

theorem grants_self (v : BitVec 32) (k : Nat) : grants v v k = false := grants_of_bits rfl rfl

theorem setPkeyValue_bits_other (old prot : BitVec 32) (pkey : UInt16) {k : Nat}
    (hk : k ≠ pkey.toNat) (h0 : old ≠ 0) :
    (setPkeyValue old pkey prot).getLsbD (2 * k) = old.getLsbD (2 * k) ∧
      (setPkeyValue old pkey prot).getLsbD (2 * k + 1) = old.getLsbD (2 * k + 1) :=
  ⟨setPkeyValue_other old prot pkey (by omega) h0, setPkeyValue_other old prot pkey (by omega) h0⟩

theorem grants_setPkeyValue_other (old prot : BitVec 32) (pkey : UInt16) {k : Nat}
    (hk : k ≠ pkey.toNat) : grants old (setPkeyValue old pkey prot) k = false := by
  by_cases h0 : old = 0
  · subst h0
    simp [grants, canAccess, canWrite]
  · exact grants_of_bits (setPkeyValue_bits_other old prot pkey hk h0).1
      (setPkeyValue_bits_other old prot pkey hk h0).2

theorem revokes_setPkeyValue_zero (old : BitVec 32) (pkey : UInt16) (h0 : old ≠ 0) (k : Nat) :
    revokes old (setPkeyValue old pkey 0) k = false := by
  by_cases hkp : k = pkey.toNat
  · subst hkp
    have h1 : 2 * pkey.toNat / 2 = pkey.toNat := by omega
    have h2 : (2 * pkey.toNat + 1) / 2 = pkey.toNat := by omega
    simp [revokes, grants, canAccess, canWrite, getLsbD_setPkeyValue, h1, h2]
  · exact grants_of_bits (setPkeyValue_bits_other old 0 pkey hkp h0).1.symm
      (setPkeyValue_bits_other old 0 pkey hkp h0).2.symm

theorem grants_setPkeyValue_disable (old : BitVec 32) (pkey : UInt16) (k : Nat) (hk : k < numDomains) :
    grants old (setPkeyValue old pkey (pkeyDisableAccess ||| pkeyDisableWrite)) k = false := by
  by_cases hkp : k = pkey.toNat
  · subst hkp
    obtain ⟨ha, hw⟩ := setPkeyValue_disables old pkey hk
    simp [grants, canAccess, canWrite, ha, hw]
  · exact grants_setPkeyValue_other old _ pkey hkp

variable {c : Call} {t t' : Tables} {s s' : State}

theorem KeysInv.pkey_used (hi : KeysInv t) {d : Fin numDomains} (hu : (t.keys d).used = true)
    {k : Nat} (hk : k = (t.keys d).pkey.toNat) : k = d := hk.trans (hi.used_pkey d hu)

theorem Effect.grants_source (he : Effect c t t') (hi : KeysInv t) (hc : CallsInv t)
    {k : Nat} (hk : k < numDomains) (hg : grants t.pkru t'.pkru k = true) :
    (∃ i : Fin numRegisteredPKUCalls, c = .pkuSwitch i ∧ (t.registeredPKUCalls i).did = k) ∨
      ∃ pkey flags AccessRights, c = .pkuDomainAssignPkey k pkey flags AccessRights := by
  have written {pkey : UInt16} {prot : BitVec 32} (h : grants t.pkru (setPkeyValue t.pkru pkey prot) k = true) :
      k = pkey.toNat := by
    by_contra hne
    rw [grants_setPkeyValue_other _ _ _ hne] at h
    cases h
  cases he with
  | commit _ did pkey flags AccessRights d hdid hu =>
    obtain rfl := hi.pkey_used hu (written hg)
    exact .inr ⟨pkey, flags, AccessRights, by rw [hdid]⟩
  | switch _ i d hd =>
    obtain ⟨d', hd', hu⟩ := hc i
    obtain rfl : d' = d := Fin.ext (by omega)
    obtain rfl := hi.pkey_used hu (written hg)
    exact .inl ⟨i, rfl, hd⟩
  | restore _ cur did _ =>
    rw [grants_setPkeyValue_disable _ _ _ hk] at hg
    cases hg
  | _ => rw [grants_self] at hg; cases hg

theorem grants_only_gate (h : Reachable s) {hook : Hook} {r : Int}
    (hs : step hook s c = some (r, s')) {k : Nat} (hk : k < numDomains)
    (hg : grants s.pkru s'.pkru k = true) :
    (∃ i : Fin numRegisteredPKUCalls, c = .pkuSwitch i ∧ (s.registeredPKUCalls i).did = k) ∨
      ∃ pkey flags AccessRights, c = .pkuDomainAssignPkey k pkey flags AccessRights :=
  (step_effect hs).grants_source h.keysInv h.callsInv hk hg

theorem grants_only_gate_sandboxed :
    Reachable sandboxed ∧
    step idleHook sandboxed (.pkuDomainAssignPkey 2 2 0 3) = some (0, sandboxed.setPkey 2 0) ∧
    2 < numDomains ∧ grants sandboxed.pkru (sandboxed.setPkey 2 0).pkru 2 = true ∧
    ((∃ i : Fin numRegisteredPKUCalls, Call.pkuDomainAssignPkey 2 2 0 3 = .pkuSwitch i ∧
        (sandboxed.registeredPKUCalls i).did = (2 : Nat)) ∨
      ∃ pkey flags AccessRights,
        Call.pkuDomainAssignPkey 2 2 0 3 = .pkuDomainAssignPkey (2 : Nat) pkey flags AccessRights) :=
  have hs : step idleHook sandboxed (.pkuDomainAssignPkey 2 2 0 3) = some (0, sandboxed.setPkey 2 0) := rfl
  have hg : grants sandboxed.pkru (sandboxed.setPkey 2 0).pkru 2 = true := by decide
  ⟨sandboxed_reachable, hs, by decide, hg, grants_only_gate sandboxed_reachable hs (by decide) hg⟩

end PkuwaProofs.Guest
