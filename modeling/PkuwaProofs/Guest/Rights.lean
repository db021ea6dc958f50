import PkuwaProofs.Guest.CallGate

namespace PkuwaProofs.Guest

def canAccess (v : BitVec 32) (k : Nat) : Bool := !v.getLsbD (2 * k)

def canWrite (v : BitVec 32) (k : Nat) : Bool := !v.getLsbD (2 * k) && !v.getLsbD (2 * k + 1)

def widens (old new : BitVec 32) : Bool :=
  (List.range numDomains).any fun k =>
    (canAccess new k && !canAccess old k) || (canWrite new k && !canWrite old k)

theorem widens_of_canWrite {old new : BitVec 32} {k : Nat} (hk : k < numDomains)
    (hnew : canWrite new k = true) (hold : canWrite old k = false) : widens old new = true :=
  List.any_eq_true.mpr ⟨k, List.mem_range.mpr hk, by simp [hnew, hold]⟩

theorem canWrite_setPkeyValue (old : BitVec 32) (pkey : UInt16) :
    canWrite (setPkeyValue old pkey 0) pkey.toNat = true := by
  have h0 : 2 * pkey.toNat / 2 = pkey.toNat := by omega
  have h1 : (2 * pkey.toNat + 1) / 2 = pkey.toNat := by omega
  simp [canWrite, getLsbD_setPkeyValue, h0, h1]

variable {c : Call} {t t' : Tables} {s s' : State}

theorem Effect.perm_zero (he : Effect c t t') (hi : ∀ d, (t.keys d).perm = 0) (d : Fin numDomains) :
    (t'.keys d).perm = 0 := by
  cases he with
  | createDomain _ _ b =>
    by_cases h : d = b
    · subst h; simpa using hi d
    · simpa [Function.update_noteq h] using hi d
  | _ => exact hi d

theorem Reachable.perm_zero (h : Reachable s) (d : Fin numDomains) : (s.keys d).perm = 0 := by
  induction h generalizing d with
  | initial pkru =>
    by_cases hd : d = 0 <;> simp [Guest.initial, pkuInitCtor, zeroState, hd, PKUKey.zero]
  | step hook c _ hs ih => exact (step_effect hs).perm_zero ih d

theorem pkuDomainAssignPkey_commit {did pkey flags AccessRights : Int}
    (h : (s.pkuDomainAssignPkey did pkey flags AccessRights).1 = 0) :
    ∃ d : Fin numDomains, did = d ∧ (s.keys d).used = true ∧
      (s.pkuDomainAssignPkey did pkey flags AccessRights).2.pkru =
        setPkeyValue s.pkru (s.keys d).pkey (s.keys d).perm := by
  unfold State.pkuDomainAssignPkey at h ⊢
  split_ifs at h ⊢
  · simp [einval] at h
  · generalize hc : s.toCore.domainAssignPkey did AccessRights = out at h ⊢
    obtain ⟨r, c⟩ := out
    obtain ⟨-, -, ⟨-, rfl⟩ | ⟨-, hd, -, rfl⟩⟩ := Core.domainAssignPkey_cases hc
    · simp [einval] at h
    · obtain ⟨d, hd', hu⟩ := Core.domainExists_iff.mp hd
      obtain rfl := slot?_eq_some.mp hd'
      exact ⟨d, rfl, hu, by simp [Core.keyAt_val]⟩

theorem pkuDomainAssignPkey_grants (h : Reachable s) {did pkey flags AccessRights : Int}
    (hr : (s.pkuDomainAssignPkey did pkey flags AccessRights).1 = 0) :
    ∃ d : Fin numDomains, did = d ∧
      canWrite (s.pkuDomainAssignPkey did pkey flags AccessRights).2.pkru d = true ∧
      (canWrite s.pkru d = false →
        widens s.pkru (s.pkuDomainAssignPkey did pkey flags AccessRights).2.pkru = true) := by
  obtain ⟨d, rfl, hu, hp⟩ := pkuDomainAssignPkey_commit hr
  have hk : (s.keys d).pkey.toNat = d := h.keysInv.used_pkey d hu
  have hw := canWrite_setPkeyValue s.pkru (s.keys d).pkey
  rw [hk, ← h.perm_zero d, ← hp] at hw
  exact ⟨d, rfl, hw, widens_of_canWrite d.isLt hw⟩

def sandboxed : State :=
  let s := ((initial 0).pkuCreateDomain (fun _ => ⟨0, initBuf [0x01, 0x21, 1]⟩) 0).2
  let s := (s.pkuCreateDomain (fun _ => ⟨0, initBuf [0x01, 0x21, 2]⟩) 0).2
  (((s.registerPKUCall 1 1).2).setPkey 1 0).setCurrentDid 1

theorem sandboxed_reachable : Reachable sandboxed :=
  .step idleHook (.pkuSwitch 0)
    (.step idleHook (.registerPKUCall 1 1)
      (.step (fun _ => ⟨0, initBuf [0x01, 0x21, 2]⟩) (.pkuCreateDomain 0)
        (.step (fun _ => ⟨0, initBuf [0x01, 0x21, 1]⟩) (.pkuCreateDomain 0) (.initial 0) rfl)
        rfl) rfl) rfl

theorem pkuDomainAssignPkey_sandboxed :
    Reachable sandboxed ∧ sandboxed.getCurrentDid = 1 ∧ sandboxed.pkru = 0x55555550#32 ∧
      sandboxed.pkuDomainAssignPkey 2 2 0 (pkeyDisableAccess ||| pkeyDisableWrite).toNat =
        (0, sandboxed.setPkey 2 0) ∧
      (sandboxed.setPkey 2 0).pkru = 0x55555540#32 ∧
      widens sandboxed.pkru (sandboxed.setPkey 2 0).pkru = true :=
  ⟨sandboxed_reachable, rfl, rfl, rfl, rfl, by decide⟩

theorem pkuDomainAssignPkey_keys (did pkey flags AccessRights : Int) :
    (s.pkuDomainAssignPkey did pkey flags AccessRights).2.keys = s.keys ∧
      ((s.pkuDomainAssignPkey did pkey flags AccessRights).1 ≠ 0 →
        s.pkuDomainAssignPkey did pkey flags AccessRights = (-einval, s)) := by
  unfold State.pkuDomainAssignPkey
  split_ifs
  · simp
  · generalize hc : s.toCore.domainAssignPkey did AccessRights = out
    obtain ⟨r, c⟩ := out
    obtain ⟨hk, -, ⟨rfl, rfl⟩ | ⟨rfl, -, -, -⟩⟩ := Core.domainAssignPkey_cases hc
    · simp [State.withCore]
    · exact ⟨hk, fun h => absurd rfl h⟩

theorem pkuDomainAssignPkey_ignores_rights :
    Reachable (initial 0) ∧
      (initial 0).pkuDomainAssignPkey 0 0 0 (pkeyDisableAccess ||| pkeyDisableWrite).toNat =
        (0, (initial 0).setPkey 0 0) ∧
      ((initial 0).setPkey 0 0).keys 0 = ⟨0, 0, true⟩ :=
  ⟨.initial 0, rfl, rfl⟩

end PkuwaProofs.Guest
