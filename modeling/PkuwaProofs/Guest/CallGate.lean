import PkuwaProofs.Guest.Invariants
import PkuwaProofs.Native

namespace PkuwaProofs.Guest

variable {s : State}

theorem pkuSwitch_slot (i : Fin numRegisteredPKUCalls) (d : Fin numDomains)
    (hd : (s.registeredPKUCalls i).did = d) :
    s.pkuSwitch i = some (0, (s.setPkey (s.keys d).pkey (s.keys d).perm).setCurrentDid d) := by
  simp [State.pkuSwitch_eq, Core.call?, Core.key?, hd]

theorem pkuSwitch_out_of_bounds {PKUCallID : Int}
    (h : ¬(0 ≤ PKUCallID ∧ PKUCallID < numRegisteredPKUCalls)) : s.pkuSwitch PKUCallID = none := by
  simp [State.pkuSwitch_eq, Core.call?, slot?_eq_none.mpr h]

theorem pkuSwitch_unchecked {s : State} (h : Reachable s) {sn : Core} (hn : Native.Reachable sn)
    (PKUCallID : Int) :
    (¬(0 ≤ PKUCallID ∧ PKUCallID < numRegisteredPKUCalls) →
      s.pkuSwitch PKUCallID = none ∧ Native.pkuSwitch sn PKUCallID = none) ∧
    ∀ i : Fin numRegisteredPKUCalls, PKUCallID = i →
      (∃ d : Fin numDomains, (s.registeredPKUCalls i).did = d ∧ (s.keys d).used = true ∧
        s.pkuSwitch PKUCallID =
          some (0, (s.setPkey (s.keys d).pkey (s.keys d).perm).setCurrentDid d)) ∧
      (∃ d : Fin numDomains, (sn.registeredPKUCalls i).did = d ∧ (sn.keys d).used = true ∧
        Native.pkuSwitch sn PKUCallID = some (0, sn.setPkey (sn.keys d).pkey (sn.keys d).perm)) := by
  refine ⟨fun hb => ⟨pkuSwitch_out_of_bounds hb, Native.pkuSwitch_out_of_bounds hb⟩,
    fun i hi => ⟨?_, ?_⟩⟩
  · obtain ⟨d, hd, hu⟩ := h.callsInv i
    exact ⟨d, hd, hu, hi ▸ pkuSwitch_slot i d hd⟩
  · obtain ⟨d, hd, hu⟩ := hn.callsExist i
    exact ⟨d, hd, hu, hi ▸ Native.pkuSwitch_slot i d hd⟩

theorem pkuSwitch_unchecked_initial :
    Reachable (initial 0) ∧ Native.Reachable (Native.initial 0) ∧
    ((¬(0 ≤ (0 : Int) ∧ (0 : Int) < numRegisteredPKUCalls) →
      (initial 0).pkuSwitch 0 = none ∧ Native.pkuSwitch (Native.initial 0) 0 = none) ∧
    ∀ i : Fin numRegisteredPKUCalls, (0 : Int) = i →
      (∃ d : Fin numDomains, ((initial 0).registeredPKUCalls i).did = d ∧
        ((initial 0).keys d).used = true ∧
        (initial 0).pkuSwitch 0 = some (0, ((initial 0).setPkey ((initial 0).keys d).pkey
          ((initial 0).keys d).perm).setCurrentDid d)) ∧
      (∃ d : Fin numDomains, ((Native.initial 0).registeredPKUCalls i).did = d ∧
        ((Native.initial 0).keys d).used = true ∧
        Native.pkuSwitch (Native.initial 0) 0 = some (0, (Native.initial 0).setPkey
          ((Native.initial 0).keys d).pkey ((Native.initial 0).keys d).perm))) :=
  ⟨.initial 0, .initial 0, pkuSwitch_unchecked (.initial 0) (.initial 0) 0⟩

theorem pkuSwitch_free_slot :
    Reachable (initial 0) ∧ ((initial 0).registeredPKUCalls 1).entry = 0 ∧
      (initial 0).pkuSwitch 1 = some (0, ((initial 0).setPkey 0 0).setCurrentDid 0) ∧
      ((initial 0).setPkey 0 0).pkru ≠ (initial 0).pkru :=
  ⟨.initial 0, rfl, rfl, by decide⟩

theorem setPkeyValue_disables (old : BitVec 32) (pkey : UInt16) (hk : pkey.toNat < 16) :
    (setPkeyValue old pkey (pkeyDisableAccess ||| pkeyDisableWrite)).getLsbD (2 * pkey.toNat) ∧
      (setPkeyValue old pkey (pkeyDisableAccess ||| pkeyDisableWrite)).getLsbD
        (2 * pkey.toNat + 1) := by
  have h0 : 2 * pkey.toNat / 2 = pkey.toNat := by omega
  have h1 : (2 * pkey.toNat + 1) / 2 = pkey.toNat := by omega
  have h3 : pkeyDisableAccess ||| pkeyDisableWrite = 3#32 := rfl
  rw [getLsbD_setPkeyValue, getLsbD_setPkeyValue, if_pos h0, if_pos h1, h3]
  simp [getLsbD_three]
  omega

theorem setPkeyValue_other (old prot : BitVec 32) (pkey : UInt16) {j : Nat}
    (hj : j / 2 ≠ pkey.toNat) (hold : old ≠ 0) :
    (setPkeyValue old pkey prot).getLsbD j = old.getLsbD j := by
  rw [getLsbD_setPkeyValue, if_neg hj, if_neg hold]

def rootGated : State := (((initial 0).registerPKUCall 0 1).2.setPkey 0 0).setCurrentDid 0

theorem rootGated_reachable : Reachable rootGated :=
  .step idleHook (.pkuSwitch 0) (.step idleHook (.registerPKUCall 0 1) (.initial 0) rfl) rfl

theorem pkuCall_bracket {s : State} (h : Reachable s) {sn : Core} (hn : Native.Reachable sn)
    (i : Fin numRegisteredPKUCalls) (D : Int) :
    (∃ d : Fin numDomains, (s.registeredPKUCalls i).did = d ∧ ∃ s₁ s₂,
      s.pkuSwitch i = some (0, s₁) ∧ s₁.pkuRestore s.getCurrentDid = some (0, s₂) ∧
      s₂.currentDid = s.currentDid ∧
      s₂.pkru = setPkeyValue (setPkeyValue s.pkru (s.keys d).pkey (s.keys d).perm)
        (s.keys d).pkey (pkeyDisableAccess ||| pkeyDisableWrite) ∧
      s₂.pkru.getLsbD (2 * d) = true ∧ s₂.pkru.getLsbD (2 * d + 1) = true ∧
      (s.pkru ≠ 0 → setPkeyValue s.pkru (s.keys d).pkey (s.keys d).perm ≠ 0 →
        ∀ j, j / 2 ≠ d.val → s₂.pkru.getLsbD j = s.pkru.getLsbD j)) ∧
    (∃ d : Fin numDomains, (sn.registeredPKUCalls i).did = d ∧ ∃ sn₁,
      Native.pkuSwitch sn i = some (0, sn₁) ∧ Native.pkuRestore sn₁ D = (0, sn₁) ∧
      sn₁.pkru = setPkeyValue sn.pkru (sn.keys d).pkey (sn.keys d).perm) := by
  refine ⟨?_, ?_⟩
  · obtain ⟨d, hd, hu⟩ := h.callsInv i
    have hk : (s.keys d).pkey.toNat = d := h.keysInv.used_pkey d hu
    let s₁ := (s.setPkey (s.keys d).pkey (s.keys d).perm).setCurrentDid d
    refine ⟨d, hd, s₁, (s₁.setPkey (s.keys d).pkey (pkeyDisableAccess ||| pkeyDisableWrite)
      ).setCurrentDid s.getCurrentDid, pkuSwitch_slot i d hd, ?_, rfl, rfl, ?_⟩
    · simp [s₁, State.pkuRestore_eq, State.getCurrentDid, Core.key?]
    · have hdis := setPkeyValue_disables
        (setPkeyValue s.pkru (s.keys d).pkey (s.keys d).perm) (s.keys d).pkey (hk ▸ d.isLt)
      rw [hk] at hdis
      refine ⟨hdis.1, hdis.2, fun h0 hv j hj => ?_⟩
      rw [← hk] at hj
      simp only [s₁, State.setCurrentDid_toCore, State.setPkey_toCore, Core.setPkey_pkru,
        setPkeyValue_other _ _ _ hj hv, setPkeyValue_other _ _ _ hj h0]
  · obtain ⟨d, hd, -⟩ := hn.callsExist i
    exact ⟨d, hd, _, Native.pkuSwitch_slot i d hd, rfl, rfl⟩

theorem pkuCall_bracket_rootGated_slot :
    Reachable rootGated ∧ Native.Reachable (Native.initial 0) ∧
    (∃ d : Fin numDomains, (rootGated.registeredPKUCalls 0).did = d ∧ ∃ s₁ s₂,
      rootGated.pkuSwitch (0 : Fin numRegisteredPKUCalls) = some (0, s₁) ∧
      s₁.pkuRestore rootGated.getCurrentDid = some (0, s₂) ∧
      s₂.currentDid = rootGated.currentDid ∧
      s₂.pkru = setPkeyValue (setPkeyValue rootGated.pkru (rootGated.keys d).pkey
        (rootGated.keys d).perm) (rootGated.keys d).pkey (pkeyDisableAccess ||| pkeyDisableWrite) ∧
      s₂.pkru.getLsbD (2 * d) = true ∧ s₂.pkru.getLsbD (2 * d + 1) = true ∧
      (rootGated.pkru ≠ 0 →
        setPkeyValue rootGated.pkru (rootGated.keys d).pkey (rootGated.keys d).perm ≠ 0 →
        ∀ j, j / 2 ≠ d.val → s₂.pkru.getLsbD j = rootGated.pkru.getLsbD j)) ∧
    (∃ d : Fin numDomains, ((Native.initial 0).registeredPKUCalls 0).did = d ∧ ∃ sn₁,
      Native.pkuSwitch (Native.initial 0) ((0 : Fin numRegisteredPKUCalls) : Int) = some (0, sn₁) ∧
      Native.pkuRestore sn₁ 0 = (0, sn₁) ∧
      sn₁.pkru = setPkeyValue (Native.initial 0).pkru ((Native.initial 0).keys d).pkey
        ((Native.initial 0).keys d).perm) :=
  ⟨rootGated_reachable, .initial 0, pkuCall_bracket rootGated_reachable (.initial 0) 0 0⟩

theorem pkuCall_bracket_rootGated :
    Reachable rootGated ∧ rootGated.pkru = 0x55555554#32 ∧
      ((rootGated.pkuSwitch 0).bind fun r => r.2.pkuRestore rootGated.getCurrentDid).map
        (·.2.pkru) = some 0x55555557#32 :=
  ⟨rootGated_reachable, rfl, rfl⟩

inductive GuardedReachable : State → Prop
  | initial (pkru : BitVec 32) : GuardedReachable (initial pkru)
  | step {s s' : State} {r : Int} (hook : Hook) (c : Call) : GuardedReachable s →
      (∀ did, c = .pkuRestore did → s.domainExists did = true) →
      step hook s c = some (r, s') → GuardedReachable s'

theorem GuardedReachable.reachable (h : GuardedReachable s) : Reachable s := by
  induction h with
  | initial pkru => exact .initial pkru
  | step hook c _ _ hs ih => exact .step hook c ih hs

def CurrentInv (t : Tables) : Prop :=
  ∃ d : Fin numDomains, t.currentDid = d ∧ (t.keys d).used = true

theorem Effect.currentInv {c : Call} {t t' : Tables} (he : Effect c t t') (hc : CallsInv t)
    (hi : CurrentInv t)
    (hg : ∀ did, c = .pkuRestore did → ∃ d : Fin numDomains, did = d ∧ (t.keys d).used = true) :
    CurrentInv t' := by
  have hkeep : ∀ d, (t.keys d).used = true → (t'.keys d).used = true := fun _ hd => he.keys_used hd
  obtain ⟨d, hd, hu⟩ := hi
  cases he with
  | switch _ i e he =>
    obtain ⟨e', he', hu'⟩ := hc i
    obtain rfl : e' = e := Fin.ext (by exact_mod_cast he'.symm.trans he)
    exact ⟨e', rfl, hu'⟩
  | restore _ cur did _ => exact hg did rfl
  | _ => exact ⟨d, hd, hkeep d hu⟩

theorem GuardedReachable.currentInv (h : GuardedReachable s) : CurrentInv s.tables := by
  induction h with
  | initial pkru => exact ⟨0, rfl, rfl⟩
  | step hook c hr hg hs ih =>
    refine (step_effect hs).currentInv hr.reachable.callsInv ih fun did hc => ?_
    obtain ⟨d, hd, hu⟩ := Core.domainExists_iff.mp (hg did hc)
    exact ⟨d, slot?_eq_some.mp hd, hu⟩

theorem guarded_current_exists (h : GuardedReachable s) :
    s.domainExists s.getCurrentDid = true ∧ (∀ did, (s.pkuRestore did).isSome = true) ∧
      ∀ (i : Fin numRegisteredPKUCalls) (r : Int) (s' : State), s.pkuSwitch i = some (r, s') →
        s'.domainExists s'.getCurrentDid = true := by
  obtain ⟨d, hd, hu⟩ := h.currentInv
  simp only [State.tables_currentDid, State.tables_keys] at hd hu
  have hslot : slot? numDomains s.getCurrentDid = some d := slot?_eq_some.mpr hd
  refine ⟨Core.domainExists_iff.mpr ⟨d, hslot, hu⟩,
    fun did => by simp [State.pkuRestore_eq, Core.key?, hslot], ?_⟩
  intro i r s' hs
  obtain ⟨e, he, hu'⟩ := h.reachable.callsInv i
  rw [pkuSwitch_slot i e he] at hs
  obtain ⟨-, rfl⟩ := Prod.mk.inj (Option.some.inj hs)
  exact Core.domainExists_iff.mpr ⟨e, by simp [State.getCurrentDid], hu'⟩

def switchedThree : State := ((callRegistered.pkuSwitch 0).getD (0, callRegistered)).2

def switchRestored : State := ((switchedThree.pkuRestore 0).getD (0, switchedThree)).2

theorem guarded_current_exists_switchRestored :
    GuardedReachable switchRestored ∧
    switchRestored.domainExists switchRestored.getCurrentDid = true ∧
    (∀ did, (switchRestored.pkuRestore did).isSome = true) ∧
    ∀ (i : Fin numRegisteredPKUCalls) (r : Int) (s' : State), switchRestored.pkuSwitch i = some (r, s') →
      s'.domainExists s'.getCurrentDid = true :=
  have h3 : GuardedReachable createdThree :=
    .step (fun _ => ⟨0, initBuf [0x01, 0x21, 3]⟩) (.pkuCreateDomain 0) (.initial 0) (fun _ h => nomatch h) rfl
  have hc : GuardedReachable callRegistered := .step idleHook (.registerPKUCall 3 7) h3 (fun _ h => nomatch h) rfl
  have hs : GuardedReachable switchedThree :=
    .step idleHook (.pkuSwitch 0) hc (fun _ h => nomatch h) rfl
  have h : GuardedReachable switchRestored :=
    .step idleHook (.pkuRestore 0) hs (fun _ h => by cases h; rfl) rfl
  ⟨h, guarded_current_exists h⟩

theorem pkuRestore_unchecked :
    (initial 0).pkuRestore 99 = some (0, ((initial 0).setPkey 0
      (pkeyDisableAccess ||| pkeyDisableWrite)).setCurrentDid 99) ∧
    Reachable (((initial 0).setPkey 0 (pkeyDisableAccess ||| pkeyDisableWrite)).setCurrentDid 99) ∧
    (((initial 0).setPkey 0 (pkeyDisableAccess ||| pkeyDisableWrite)).setCurrentDid 99).domainExists
      (((initial 0).setPkey 0 (pkeyDisableAccess ||| pkeyDisableWrite)).setCurrentDid 99).getCurrentDid
      = false ∧
    (((initial 0).setPkey 0 (pkeyDisableAccess ||| pkeyDisableWrite)).setCurrentDid 99).pkuRestore 0
      = none :=
  ⟨rfl, .step idleHook (.pkuRestore 99) (.initial 0) rfl, rfl, rfl⟩

end PkuwaProofs.Guest
