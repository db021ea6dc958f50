import PkuwaProofs.Register
import PkuwaProofs.HostCall
import Mathlib.Data.List.FinRange

namespace PkuwaProofs.Core

variable {s s' : Core} {head : List UInt8} {hook : Hook} {did : Int} {entry : Nat} {r : Int}

def createDomainWith (head : List UInt8) (hook : Hook) (s : Core) : Int × Core :=
  let call := s.wasiCall hook (initBuf head)
  let reply := call.1
  let s := call.2
  if reply.error ≠ 0 then (-1, s)
  else if h : 16 ≤ (reply.buf 2).toNat then (0, s)
  else
    let b : Fin numDomains := ⟨(reply.buf 2).toNat, by simp only [numDomains]; omega⟩
    let key := s.keys b
    (b, { s with keys := Function.update s.keys b { key with pkey := b.val.toUInt16, used := true } })

def firstFreeCall (s : Core) : Option (Fin numRegisteredPKUCalls) :=
  (List.finRange numRegisteredPKUCalls).find? fun i => (s.registeredPKUCalls i).entry = 0

def registerPKUCall (s : Core) (did : Int) (entry : Nat) : Int × Core :=
  if !s.domainExists did then (-einval, s)
  else
    match s.firstFreeCall with
    | none => (-eacces, s)
    | some i =>
      if (s.registeredPKUCalls i).entry ≠ 0 then (-eacces, s)
      else (i, { s with registeredPKUCalls := Function.update s.registeredPKUCalls i ⟨did, entry⟩ })

def invalidAccessRights (AccessRights : Int) : Bool :=
  BitVec.ofInt 32 AccessRights &&& ~~~(pkeyDisableAccess ||| pkeyDisableWrite) ≠ 0

def domainAssignPkey (s : Core) (did AccessRights : Int) : Int × Core :=
  if !s.domainExists did then (-einval, s)
  else if invalidAccessRights AccessRights then (-einval, s)
  else (0, s.setPkey (s.keyAt did).pkey (s.keyAt did).perm)

theorem firstFreeCall_entry {i : Fin numRegisteredPKUCalls} (h : s.firstFreeCall = some i) :
    (s.registeredPKUCalls i).entry = 0 := by
  simpa using List.find?_some h

theorem firstFreeCall_least {i : Fin numRegisteredPKUCalls} (h : s.firstFreeCall = some i) :
    (s.registeredPKUCalls i).entry = 0 ∧ ∀ j < i, (s.registeredPKUCalls j).entry ≠ 0 := by
  obtain ⟨hp, as, bs, heq, has⟩ := List.find?_eq_some.mp h
  refine ⟨by simpa using hp, fun j hj => ?_⟩
  have hs := List.pairwise_lt_finRange numRegisteredPKUCalls
  have hm := List.mem_finRange j
  rw [heq, List.pairwise_append] at hs
  rw [heq] at hm
  rcases List.mem_append.mp hm with hm | hm
  · simpa using has j hm
  · rcases List.mem_cons.mp hm with rfl | hm
    · exact absurd hj (Fin.lt_irrefl _)
    · have hij := (List.pairwise_cons.mp hs.2.1).1 j hm
      omega

theorem firstFreeCall_eq_some {i : Fin numRegisteredPKUCalls} :
    s.firstFreeCall = some i ↔
      (s.registeredPKUCalls i).entry = 0 ∧ ∀ j < i, (s.registeredPKUCalls j).entry ≠ 0 := by
  refine ⟨firstFreeCall_least, fun ⟨hi, hmin⟩ => ?_⟩
  cases h : s.firstFreeCall with
  | none => simp [firstFreeCall] at h; exact absurd hi (h i)
  | some i' =>
    obtain ⟨hi', hmin'⟩ := firstFreeCall_least h
    rcases Nat.lt_trichotomy i i' with hlt | heq | hgt
    · exact absurd hi (hmin' i hlt)
    · exact congrArg some (Fin.ext heq).symm
    · exact absurd hi' (hmin i' hgt)

theorem registerPKUCall_spec (s : Core) (did : Int) (entry : Nat) :
    (s.domainExists did = false → s.registerPKUCall did entry = (-einval, s)) ∧
    (s.domainExists did = true → ∀ i : Fin numRegisteredPKUCalls,
      (s.registeredPKUCalls i).entry = 0 → (∀ j < i, (s.registeredPKUCalls j).entry ≠ 0) →
      s.registerPKUCall did entry =
        ((i.val : Int),
          { s with registeredPKUCalls := Function.update s.registeredPKUCalls i ⟨did, entry⟩ })) ∧
    (s.domainExists did = true → (∀ i, (s.registeredPKUCalls i).entry ≠ 0) →
      s.registerPKUCall did entry = (-eacces, s)) ∧
    ∀ i, s.firstFreeCall = some i → (s.registeredPKUCalls i).entry = 0 := by
  refine ⟨fun h => by simp [registerPKUCall, h], fun h i hi hmin => ?_, fun h hfull => ?_,
    fun _ => firstFreeCall_entry⟩
  · simp [registerPKUCall, h, firstFreeCall_eq_some.mpr ⟨hi, hmin⟩, hi]
  · have hnone : s.firstFreeCall = none := by simpa [firstFreeCall] using hfull
    simp [registerPKUCall, h, hnone]

theorem registerPKUCall_spec_rootOnly :
    let s : Core := ⟨Function.update (fun _ => PKUKey.zero) 0 ⟨0, 0, true⟩, fun _ => PKUCall.zero, 0, [], 0⟩
    let full : Core := { s with registeredPKUCalls := fun _ => ⟨0, 1⟩ }
    s.domainExists 1 = false ∧ s.registerPKUCall 1 7 = (-einval, s) ∧
      s.domainExists 0 = true ∧ (s.registeredPKUCalls 0).entry = 0 ∧
      (∀ j < (0 : Fin numRegisteredPKUCalls), (s.registeredPKUCalls j).entry ≠ 0) ∧
      s.registerPKUCall 0 7 =
        (0, { s with registeredPKUCalls := Function.update s.registeredPKUCalls 0 ⟨0, 7⟩ }) ∧
      full.domainExists 0 = true ∧ (∀ i, (full.registeredPKUCalls i).entry ≠ 0) ∧
      full.registerPKUCall 0 7 = (-eacces, full) :=
  let s : Core := ⟨Function.update (fun _ => PKUKey.zero) 0 ⟨0, 0, true⟩, fun _ => PKUCall.zero, 0, [], 0⟩
  let full : Core := { s with registeredPKUCalls := fun _ => ⟨0, 1⟩ }
  have h1 : s.domainExists 1 = false := by decide
  have h0 : s.domainExists 0 = true := by decide
  have hf : full.domainExists 0 = true := by decide
  have hmin : ∀ j < (0 : Fin numRegisteredPKUCalls), (s.registeredPKUCalls j).entry ≠ 0 :=
    fun j hj => absurd hj (Fin.not_lt_zero j)
  have hfull : ∀ i, (full.registeredPKUCalls i).entry ≠ 0 := fun _ => one_ne_zero
  ⟨h1, (registerPKUCall_spec s 1 7).1 h1, h0, rfl, hmin,
    (registerPKUCall_spec s 0 7).2.1 h0 0 rfl hmin, hf, hfull,
    (registerPKUCall_spec full 0 7).2.2.1 hf hfull⟩

theorem createDomainWith_cases (h : s.createDomainWith head hook = (r, s')) :
    s'.registeredPKUCalls = s.registeredPKUCalls ∧ s'.pkru = s.pkru ∧
      ((s'.keys = s.keys ∧ (r = -1 ∨ r = 0)) ∨
        ∃ b : Fin numDomains, r = b ∧
          s'.keys = Function.update s.keys b ⟨b.val.toUInt16, (s.keys b).perm, true⟩) := by
  unfold createDomainWith at h
  dsimp only at h
  split at h
  · obtain ⟨rfl, rfl⟩ := Prod.mk.inj h
    simp
  · split at h
    · obtain ⟨rfl, rfl⟩ := Prod.mk.inj h
      simp
    · next hb =>
      obtain ⟨rfl, rfl⟩ := Prod.mk.inj h
      exact ⟨rfl, rfl, .inr ⟨⟨_, Nat.lt_of_not_le hb⟩, rfl, rfl⟩⟩

theorem registerPKUCall_cases (h : s.registerPKUCall did entry = (r, s')) :
    s'.keys = s.keys ∧ s'.pkru = s.pkru ∧ s'.trace = s.trace ∧
      ((s'.registeredPKUCalls = s.registeredPKUCalls ∧ r < 0) ∨
        ∃ i, s.firstFreeCall = some i ∧ r = i ∧ s.domainExists did = true ∧
          s'.registeredPKUCalls = Function.update s.registeredPKUCalls i ⟨did, entry⟩) := by
  unfold registerPKUCall at h
  split at h
  · obtain ⟨rfl, rfl⟩ := Prod.mk.inj h
    simp [einval]
  · next hd =>
    split at h
    · obtain ⟨rfl, rfl⟩ := Prod.mk.inj h
      simp [eacces]
    · next i hi =>
      split at h
      · obtain ⟨rfl, rfl⟩ := Prod.mk.inj h
        simp [eacces]
      · obtain ⟨rfl, rfl⟩ := Prod.mk.inj h
        exact ⟨rfl, rfl, rfl, .inr ⟨i, hi, rfl, by simpa using hd, rfl⟩⟩

theorem domainAssignPkey_cases (h : s.domainAssignPkey did r = (r', s')) :
    s'.keys = s.keys ∧ s'.registeredPKUCalls = s.registeredPKUCalls ∧
      ((s' = s ∧ r' = -einval) ∨
        (r' = 0 ∧ s.domainExists did = true ∧ invalidAccessRights r = false ∧
          s' = s.setPkey (s.keyAt did).pkey (s.keyAt did).perm)) := by
  unfold domainAssignPkey at h
  split at h
  · obtain ⟨rfl, rfl⟩ := Prod.mk.inj h
    simp
  · split at h
    · obtain ⟨rfl, rfl⟩ := Prod.mk.inj h
      simp
    · obtain ⟨rfl, rfl⟩ := Prod.mk.inj h
      simp_all

end PkuwaProofs.Core
