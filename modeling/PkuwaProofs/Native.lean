import PkuwaProofs.Registry

namespace PkuwaProofs.Native

def pkuInitCtor (s : Core) : Core :=
  let root := s.keys 0
  { s with keys := Function.update s.keys 0 { root with perm := 0, pkey := 0, used := true } }

def initial (pkru : BitVec 32) : Core :=
  pkuInitCtor (Core.zero pkru)

variable (s : Core) (hook : Hook)

def domainProtect (addr length pkey : Nat) : Int × Core :=
  s.domainProtectWith [0x01, 0x49] hook addr length pkey

def pkuCreateDomain (_flags : BitVec 32) : Int × Core := s.createDomainWith [0x01, 0x4A] hook

def registerPKUCall (did : Int) (entry : Nat) : Int × Core := s.registerPKUCall did entry

def readPkru : Int × Core := s.readPKRUWith [0x0F, 0xEE] hook

def writePkru (pkru : Nat) : Int × Core := s.writePKRUWith [0x0F, 0xEF] hook pkru

def pkuDomainAssignPkey (did _pkey _flags AccessRights : Int) : Int × Core :=
  s.domainAssignPkey did AccessRights

def pkuSwitch (PKUCallID : Int) : Option (Int × Core) := do
  let did := (← s.call? PKUCallID).did
  let key ← s.key? did
  some (0, s.setPkey key.pkey key.perm)

def pkuRestore (_did : Int) : Int × Core := (0, s)

inductive Call where
  | pkuInit (flags : Int)
  | pkuDeinit
  | pkuDomainFree (did : Int)
  | pkuPkeyAlloc (flags AccessRights : BitVec 32)
  | pkuPkeyFree (pkey : Int)
  | pkuPkeyMprotect (addr len : Nat) (prot pkey : Int)
  | pkuDomainAllowCaller (CallerDid : Int) (flags : BitVec 32)
  | enableSectionGuardPage (did : Int)
  | domainProtect (addr length pkey : Nat)
  | pkuCreateDomain (flags : BitVec 32)
  | registerPKUCall (did : Int) (entry : Nat)
  | readPkru
  | pkuDomainAssignPkey (did pkey flags AccessRights : Int)
  | pkuSwitch (PKUCallID : Int)
  | pkuRestore (did : Int)

/-- The stubs `PKUInit`, `PKUDeinit`, `PKUDomainFree`, `PKUPkeyAlloc`, `PKUPkeyFree`,
`PKUPkeyMprotect`, `PKUDomainAllowCaller` and `EnableSectionGuardPage` return `0`. -/
def step (hook : Hook) (s : Core) : Call → Option (Int × Core)
  | .pkuInit _ | .pkuDeinit | .pkuDomainFree _ | .pkuPkeyAlloc _ _ | .pkuPkeyFree _
  | .pkuPkeyMprotect _ _ _ _ | .pkuDomainAllowCaller _ _ | .enableSectionGuardPage _ =>
    some (0, s)
  | .domainProtect addr length pkey => some (domainProtect s hook addr length pkey)
  | .pkuCreateDomain flags => some (pkuCreateDomain s hook flags)
  | .registerPKUCall did entry => some (registerPKUCall s did entry)
  | .readPkru => some (readPkru s hook)
  | .pkuDomainAssignPkey did pkey flags AccessRights =>
    some (pkuDomainAssignPkey s did pkey flags AccessRights)
  | .pkuSwitch PKUCallID => pkuSwitch s PKUCallID
  | .pkuRestore did => some (pkuRestore s did)

inductive Reachable : Core → Prop
  | initial (pkru : BitVec 32) : Reachable (initial pkru)
  | step {s s' : Core} {r : Int} (hook : Hook) (c : Call) :
      Reachable s → step hook s c = some (r, s') → Reachable s'

def CallsExist (s : Core) : Prop :=
  ∀ i, ∃ d : Fin numDomains, (s.registeredPKUCalls i).did = d ∧ (s.keys d).used = true

theorem pkuSwitch_eq (PKUCallID : Int) :
    pkuSwitch s PKUCallID = (s.call? PKUCallID).bind fun call => (s.key? call.did).bind fun key =>
      some (0, s.setPkey key.pkey key.perm) := rfl

theorem pkuSwitch_slot {s : Core} (i : Fin numRegisteredPKUCalls) (d : Fin numDomains)
    (hd : (s.registeredPKUCalls i).did = d) :
    pkuSwitch s i = some (0, s.setPkey (s.keys d).pkey (s.keys d).perm) := by
  simp [pkuSwitch_eq, Core.call?, Core.key?, hd]

theorem pkuSwitch_out_of_bounds {s : Core} {PKUCallID : Int}
    (h : ¬(0 ≤ PKUCallID ∧ PKUCallID < numRegisteredPKUCalls)) : pkuSwitch s PKUCallID = none := by
  simp [pkuSwitch_eq, Core.call?, slot?_eq_none.mpr h]

theorem eq_snd_of_some {x : Int × Core} {r : Int} {s' : Core} (h : some x = some (r, s')) :
    s' = x.2 := by
  cases h; rfl

theorem step_tables {s s' : Core} {hook : Hook} {c : Call} {r : Int}
    (h : step hook s c = some (r, s')) :
    (∀ d, (s.keys d).used = true → (s'.keys d).used = true) ∧
      (s'.registeredPKUCalls = s.registeredPKUCalls ∨
        ∃ i, ∃ d : Fin numDomains, ∃ entry, (s.keys d).used = true ∧
          s'.registeredPKUCalls = Function.update s.registeredPKUCalls i ⟨d, entry⟩) := by
  cases c with
  | pkuCreateDomain flags =>
    obtain ⟨hc, -, ⟨hk, -⟩ | ⟨b, -, hk⟩⟩ := Core.createDomainWith_cases (Option.some.inj h)
    · exact ⟨fun d hd => hk ▸ hd, .inl hc⟩
    · refine ⟨fun d hd => ?_, .inl hc⟩
      rw [hk]
      by_cases hdb : d = b
      · subst hdb; simp
      · simpa [Function.update_noteq hdb] using hd
  | registerPKUCall did entry =>
    obtain ⟨hk, -, -, ⟨hc, -⟩ | ⟨i, -, -, hd, hc⟩⟩ :=
      Core.registerPKUCall_cases (Option.some.inj h)
    · exact ⟨fun d hd => hk ▸ hd, .inl hc⟩
    · obtain ⟨d, hd', hu⟩ := Core.domainExists_iff.mp hd
      obtain rfl := slot?_eq_some.mp hd'
      exact ⟨fun d hd => hk ▸ hd, .inr ⟨i, d, entry, hu, hc⟩⟩
  | pkuDomainAssignPkey did pkey flags AccessRights =>
    obtain ⟨hk, hc, -⟩ := Core.domainAssignPkey_cases (Option.some.inj h)
    exact ⟨fun d hd => hk ▸ hd, .inl hc⟩
  | pkuSwitch PKUCallID =>
    rw [step, pkuSwitch_eq] at h
    obtain ⟨call, -, h⟩ := Option.bind_eq_some.mp h
    obtain ⟨key, -, h⟩ := Option.bind_eq_some.mp h
    obtain ⟨-, rfl⟩ := Prod.mk.inj (Option.some.inj h)
    exact ⟨fun d hd => hd, .inl rfl⟩
  | readPkru =>
    rw [eq_snd_of_some h]
    simp only [readPkru, Core.readPKRUWith_snd]
    exact ⟨fun d hd => hd, .inl rfl⟩
  | _ => rw [eq_snd_of_some h]; exact ⟨fun d hd => hd, .inl rfl⟩

theorem Reachable.callsExist {s : Core} (h : Reachable s) : CallsExist s := by
  induction h with
  | initial pkru => exact fun _ => ⟨0, rfl, rfl⟩
  | step hook c _ hs ih =>
    obtain ⟨hmono, hc | ⟨i, d, entry, hd, hc⟩⟩ := step_tables hs
    · intro j
      obtain ⟨e, he, hu⟩ := ih j
      exact ⟨e, hc ▸ he, hmono e hu⟩
    · intro j
      rw [hc]
      by_cases hj : j = i
      · subst hj; exact ⟨d, by simp, hmono d hd⟩
      · obtain ⟨e, he, hu⟩ := ih j
        exact ⟨e, by simpa [Function.update_noteq hj] using he, hmono e hu⟩

end PkuwaProofs.Native
