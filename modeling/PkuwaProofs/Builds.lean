import PkuwaProofs.Guest.Grants
import PkuwaProofs.Guest.Teardown

namespace PkuwaProofs

namespace Core

def SameTables (c c' : Core) : Prop :=
  c.keys = c'.keys ∧ c.registeredPKUCalls = c'.registeredPKUCalls ∧ c.pkru = c'.pkru

variable {c c' : Core}

theorem SameTables.wasiCall (h : SameTables c c') (hook hook' : Hook) (buf buf' : Buf) :
    SameTables (c.wasiCall hook buf).2 (c'.wasiCall hook' buf').2 := h

theorem SameTables.setPkey (h : SameTables c c') (pkey : UInt16) (prot : BitVec 32) :
    SameTables (c.setPkey pkey prot) (c'.setPkey pkey prot) := by
  obtain ⟨hk, hc, hp⟩ := h
  exact ⟨hk, hc, by simp [setPkey, wrpkru, rdpkru, hp]⟩

theorem SameTables.domainExists (h : SameTables c c') (did : Int) :
    c.domainExists did = c'.domainExists did := by
  simp [Core.domainExists, h.1]

theorem SameTables.key? (h : SameTables c c') (did : Int) : c.key? did = c'.key? did := by
  simp [Core.key?, h.1]

theorem SameTables.call? (h : SameTables c c') (PKUCallID : Int) :
    c.call? PKUCallID = c'.call? PKUCallID := by
  simp [Core.call?, h.2.1]

theorem SameTables.createDomainWith (h : SameTables c c') (head head' : List UInt8)
    (hook hook' : Hook) (hr : hook (initBuf head) = hook' (initBuf head')) :
    (c.createDomainWith head hook).1 = (c'.createDomainWith head' hook').1 ∧
      SameTables (c.createDomainWith head hook).2 (c'.createDomainWith head' hook').2 := by
  obtain ⟨hk, hc, hp⟩ := h
  simp only [Core.createDomainWith, wasiCall_fst, hr]
  split_ifs <;> exact ⟨rfl, by simp [SameTables, hk, hc, hp]⟩

theorem SameTables.registerPKUCall (h : SameTables c c') (did : Int) (entry : Nat) :
    (c.registerPKUCall did entry).1 = (c'.registerPKUCall did entry).1 ∧
      SameTables (c.registerPKUCall did entry).2 (c'.registerPKUCall did entry).2 := by
  have hf : c.firstFreeCall = c'.firstFreeCall := by simp [firstFreeCall, h.2.1]
  obtain ⟨hk, hc, hp⟩ := h
  simp only [Core.registerPKUCall, Core.domainExists, hk, hc, hf]
  split
  · exact ⟨rfl, hk, hc, hp⟩
  · split
    · exact ⟨rfl, hk, hc, hp⟩
    · split_ifs <;> exact ⟨rfl, by simp [SameTables, hk, hc, hp]⟩

theorem SameTables.domainAssignPkey (h : SameTables c c') (did AccessRights : Int) :
    (c.domainAssignPkey did AccessRights).1 = (c'.domainAssignPkey did AccessRights).1 ∧
      SameTables (c.domainAssignPkey did AccessRights).2 (c'.domainAssignPkey did AccessRights).2 := by
  have hkey : c.keyAt did = c'.keyAt did := by simp [keyAt, h.key? did]
  simp only [Core.domainAssignPkey, h.domainExists did, hkey]
  split_ifs
  · exact ⟨rfl, h⟩
  · exact ⟨rfl, h⟩
  · exact ⟨rfl, h.setPkey _ _⟩

theorem readPKRUWith_reply (c c' : Core) (head head' : List UInt8) (hook hook' : Hook)
    (hr : hook (initBuf head) = hook' (initBuf head')) :
    (c.readPKRUWith head hook).1 = (c'.readPKRUWith head' hook').1 := by
  simp only [readPKRUWith, wasiCall_fst, hr]
  split_ifs <;> rfl

theorem SameTables.readPKRUWith (h : SameTables c c') (head head' : List UInt8) (hook hook' : Hook) :
    SameTables (c.readPKRUWith head hook).2 (c'.readPKRUWith head' hook').2 := by
  rw [readPKRUWith_snd, readPKRUWith_snd]
  exact h

end Core

namespace Native

def Call.guest : Call → Option Guest.Call
  | .pkuDeinit => some .pkuDeinit
  | .enableSectionGuardPage did => some (.enableSectionGuardPage did)
  | .domainProtect addr length pkey => some (.domainProtect addr length pkey)
  | .pkuCreateDomain flags => some (.pkuCreateDomain flags)
  | .registerPKUCall did entry => some (.registerPKUCall did entry)
  | .readPkru => some .readPKRU
  | .pkuDomainAssignPkey did pkey flags AccessRights =>
    some (.pkuDomainAssignPkey did pkey flags AccessRights)
  | .pkuSwitch PKUCallID => some (.pkuSwitch PKUCallID)
  | .pkuInit _ | .pkuDomainFree _ | .pkuPkeyAlloc _ _ | .pkuPkeyFree _ | .pkuPkeyMprotect _ _ _ _
  | .pkuDomainAllowCaller _ _ | .pkuRestore _ => none

theorem Call.guest_ne_restore {cn : Call} {c : Guest.Call} (hc : cn.guest = some c) (did : Int) :
    c ≠ .pkuRestore did := by
  cases cn <;> cases hc <;> exact fun h => nomatch h

theorem step_unshared {sn sn' : Core} {hook : Hook} {cn : Call} {r : Int}
    (hc : cn.guest = none) (h : step hook sn cn = some (r, sn')) : sn' = sn := by
  cases cn <;> first | (cases h; rfl) | cases hc

def nativeRequest (b : Buf) : Buf :=
  if b = initBuf [0x01, 0x21] then initBuf [0x01, 0x4A]
  else if b = initBuf [0x0F, 0x01, 0xEE] then initBuf [0x0F, 0xEE]
  else if b 0 = 0x01 ∧ b 1 = 0x20 then setByte b 1 0x49
  else b

def guestHook (hook : Hook) : Hook := fun b => hook (nativeRequest b)

theorem guestHook_createDomain (hook : Hook) :
    guestHook hook (initBuf [0x01, 0x21]) = hook (initBuf [0x01, 0x4A]) := by
  simp [guestHook, nativeRequest]

theorem guestHook_readPKRU (hook : Hook) :
    guestHook hook (initBuf [0x0F, 0x01, 0xEE]) = hook (initBuf [0x0F, 0xEE]) := by
  have hne : initBuf [0x0F, 0x01, 0xEE] ≠ initBuf [0x01, 0x21] := by decide
  simp [guestHook, nativeRequest, hne]

end Native

open Guest in
theorem step_matched {s : Guest.State} {sn sn' : Core} {hook : Hook} {cn : Native.Call}
    {c : Guest.Call} {r : Int} (hcur : s.domainExists s.getCurrentDid = true)
    (ha : Core.SameTables s.toCore sn) (hc : cn.guest = some c)
    (h : Native.step hook sn cn = some (r, sn')) :
    ∃ s', Guest.step (Native.guestHook hook) s c = some (r, s') ∧ Core.SameTables s'.toCore sn' := by
  cases cn with
  | pkuDeinit => cases hc; cases h; exact ⟨s, rfl, ha⟩
  | enableSectionGuardPage did => cases hc; cases h; exact ⟨s, rfl, ha⟩
  | domainProtect addr length pkey =>
    cases hc; cases h; exact ⟨_, rfl, ha.wasiCall _ hook _ _⟩
  | pkuCreateDomain flags =>
    cases hc
    obtain ⟨rfl, rfl⟩ := Prod.ext_iff.mp (Option.some.inj h)
    obtain ⟨h1, h2⟩ := ha.createDomainWith [0x01, 0x21] [0x01, 0x4A] (Native.guestHook hook) hook
      (Native.guestHook_createDomain hook)
    exact ⟨_, by simp only [Guest.step, State.pkuCreateDomain, State.withCore, h1]; rfl, h2⟩
  | registerPKUCall did entry =>
    cases hc
    obtain ⟨rfl, rfl⟩ := Prod.ext_iff.mp (Option.some.inj h)
    obtain ⟨h1, h2⟩ := ha.registerPKUCall did entry
    exact ⟨_, by simp only [Guest.step, State.registerPKUCall, State.withCore, h1]; rfl, h2⟩
  | readPkru =>
    cases hc
    obtain ⟨rfl, rfl⟩ := Prod.ext_iff.mp (Option.some.inj h)
    have h1 := Core.readPKRUWith_reply s.toCore sn [0x0F, 0x01, 0xEE] [0x0F, 0xEE]
      (Native.guestHook hook) hook (Native.guestHook_readPKRU hook)
    exact ⟨_, by simp only [Guest.step, State.readPKRU, State.withCore, h1]; rfl,
      ha.readPKRUWith _ _ _ _⟩
  | pkuDomainAssignPkey did pkey flags AccessRights =>
    cases hc
    obtain ⟨rfl, rfl⟩ := Prod.ext_iff.mp (Option.some.inj h)
    obtain ⟨h1, h2⟩ := ha.domainAssignPkey did AccessRights
    exact ⟨_, by
      simp only [Guest.step, State.pkuDomainAssignPkey, State.withCore, hcur, h1, Bool.not_true,
        Bool.false_eq_true, if_false]; rfl, h2⟩
  | pkuSwitch PKUCallID =>
    cases hc
    obtain ⟨call, hcall, h⟩ := Option.bind_eq_some.mp h
    obtain ⟨key, hkey, h⟩ := Option.bind_eq_some.mp h
    cases h
    refine ⟨(s.setPkey key.pkey key.perm).setCurrentDid call.did, ?_, ha.setPkey key.pkey key.perm⟩
    simp only [Guest.step, State.pkuSwitch_eq, ha.call? PKUCallID, hcall, Option.some_bind, ha.key?,
      hkey]
  | _ => cases hc

inductive Guest.RestoreFreeReachable : Guest.State → Prop
  | initial (pkru : BitVec 32) : RestoreFreeReachable (Guest.initial pkru)
  | step {s s' : Guest.State} {r : Int} (hook : Hook) (c : Guest.Call) : RestoreFreeReachable s →
      (∀ did, c ≠ .pkuRestore did) → Guest.step hook s c = some (r, s') → RestoreFreeReachable s'

theorem Guest.RestoreFreeReachable.guarded {s : Guest.State} (h : Guest.RestoreFreeReachable s) :
    Guest.GuardedReachable s := by
  induction h with
  | initial pkru => exact .initial pkru
  | step hook c _ hc hs ih => exact .step hook c ih (fun did hd => absurd hd (hc did)) hs

theorem Guest.GuardedReachable.current_exists {s : Guest.State} (h : Guest.GuardedReachable s) :
    s.domainExists s.getCurrentDid = true := by
  obtain ⟨d, hd, hu⟩ := h.currentInv
  exact Core.domainExists_iff.mpr ⟨d, slot?_eq_some.mpr hd, hu⟩

section Lockstep

variable {s : Guest.State} {sn sn' : Core} {hook : Hook} {cn : Native.Call} {c : Guest.Call} {r : Int}

theorem native_lockstep (hg : Guest.GuardedReachable s) (ha : Core.SameTables s.toCore sn)
    (hc : cn.guest = some c) (h : Native.step hook sn cn = some (r, sn')) :
    ∃ s', Guest.step (Native.guestHook hook) s c = some (r, s') ∧ Core.SameTables s'.toCore sn' :=
  step_matched hg.current_exists ha hc h

def nativeHostThree : Hook := fun _ => ⟨0, initBuf [0x01, 0x4A, 3]⟩

def nativeCreated : Core := (Native.pkuCreateDomain (Native.initial 0) nativeHostThree 0).2

theorem native_lockstep_created :
    Guest.GuardedReachable (Guest.initial 0) ∧
    Core.SameTables (Guest.initial 0).toCore (Native.initial 0) ∧
    (Native.Call.pkuCreateDomain 0).guest = some (.pkuCreateDomain 0) ∧
    Native.step nativeHostThree (Native.initial 0) (.pkuCreateDomain 0) = some (3, nativeCreated) ∧
    ∃ s', Guest.step (Native.guestHook nativeHostThree) (Guest.initial 0) (.pkuCreateDomain 0) =
      some (3, s') ∧ Core.SameTables s'.toCore nativeCreated :=
  have ha : Core.SameTables (Guest.initial 0).toCore (Native.initial 0) := ⟨rfl, rfl, rfl⟩
  have hc : (Native.Call.pkuCreateDomain 0).guest = some (.pkuCreateDomain 0) := rfl
  have h : Native.step nativeHostThree (Native.initial 0) (.pkuCreateDomain 0) = some (3, nativeCreated) :=
    rfl
  ⟨.initial 0, ha, hc, h, native_lockstep (.initial 0) ha hc h⟩

theorem native_reached (hn : Native.Reachable sn) :
    ∃ s : Guest.State, Guest.RestoreFreeReachable s ∧
      s.keys = sn.keys ∧ s.registeredPKUCalls = sn.registeredPKUCalls ∧ s.pkru = sn.pkru := by
  induction hn with
  | initial pkru => exact ⟨Guest.initial pkru, .initial pkru, rfl, rfl, rfl⟩
  | step hook cn _ hs ih =>
    obtain ⟨s, hg, ha⟩ := ih
    cases hcg : cn.guest with
    | none => exact Native.step_unshared hcg hs ▸ ⟨s, hg, ha⟩
    | some c =>
      obtain ⟨s', hstep, ha'⟩ := step_matched hg.guarded.current_exists ha hcg hs
      exact ⟨s', .step _ c hg (Native.Call.guest_ne_restore hcg) hstep, ha'⟩

theorem native_reached_created :
    Native.Reachable nativeCreated ∧
    ∃ s : Guest.State, Guest.RestoreFreeReachable s ∧ s.keys = nativeCreated.keys ∧
      s.registeredPKUCalls = nativeCreated.registeredPKUCalls ∧ s.pkru = nativeCreated.pkru :=
  have hn : Native.Reachable nativeCreated := .step nativeHostThree (.pkuCreateDomain 0) (.initial 0) rfl
  ⟨hn, native_reached hn⟩

end Lockstep

theorem slot_of_range {n : Nat} {i : Int} (h : 0 ≤ i ∧ i < n) : ∃ j : Fin n, i = j :=
  ⟨⟨i.toNat, by omega⟩, by simp only; omega⟩

theorem Guest.step_none {s : Guest.State} (h : Guest.Reachable s) (hook : Hook) (c : Guest.Call) :
    Guest.step hook s c = none ↔
      (∃ PKUCallID, c = .pkuSwitch PKUCallID ∧ ¬(0 ≤ PKUCallID ∧ PKUCallID < numRegisteredPKUCalls)) ∨
      (∃ did, c = .pkuRestore did ∧ ¬(0 ≤ s.getCurrentDid ∧ s.getCurrentDid < numDomains)) := by
  refine ⟨fun hc => ?_, ?_⟩
  · cases c with
    | pkuDomainFree domain => simp [Guest.step, Guest.pkuDomainFree_inert h domain] at hc
    | pkuPkeyFree pkey =>
      simp [Guest.step, Guest.pkuPkeyFree_inert h pkey, Guest.pkuDomainFree_inert h pkey] at hc
    | pkuSwitch PKUCallID =>
      refine .inl ⟨PKUCallID, rfl, fun hid => ?_⟩
      obtain ⟨i, rfl⟩ := slot_of_range hid
      obtain ⟨d, hd, -⟩ := h.callsInv i
      simp [Guest.step, Guest.pkuSwitch_slot i d hd] at hc
    | pkuRestore did =>
      refine .inr ⟨did, rfl, fun hcur => ?_⟩
      obtain ⟨d, hd⟩ := slot_of_range hcur
      simp [Guest.step, Guest.State.pkuRestore_eq, Core.key?, slot?_eq_some.mpr hd] at hc
    | _ => simp [Guest.step] at hc
  · rintro (⟨PKUCallID, rfl, hid⟩ | ⟨did, rfl, hcur⟩)
    · exact Guest.pkuSwitch_out_of_bounds hid
    · simp [Guest.step, Guest.State.pkuRestore_eq, Core.key?, slot?_eq_none.mpr hcur]

theorem Native.step_none {sn : Core} (hn : Native.Reachable sn) (hook : Hook) (c : Native.Call) :
    Native.step hook sn c = none ↔
      ∃ PKUCallID, c = .pkuSwitch PKUCallID ∧ ¬(0 ≤ PKUCallID ∧ PKUCallID < numRegisteredPKUCalls) := by
  refine ⟨fun hc => ?_, fun ⟨PKUCallID, hc, hid⟩ => hc ▸ Native.pkuSwitch_out_of_bounds hid⟩
  cases c with
  | pkuSwitch PKUCallID =>
    refine ⟨PKUCallID, rfl, fun hid => ?_⟩
    obtain ⟨i, rfl⟩ := slot_of_range hid
    obtain ⟨d, hd, -⟩ := hn.callsExist i
    simp [Native.step, Native.pkuSwitch_slot i d hd] at hc
  | _ => simp [Native.step] at hc

theorem undefined_only_out_of_range {s : Guest.State} (h : Guest.Reachable s)
    {sn : Core} (hn : Native.Reachable sn) (hook : Hook) :
    (∀ c, Guest.step hook s c = none ↔
      (∃ PKUCallID, c = .pkuSwitch PKUCallID ∧ ¬(0 ≤ PKUCallID ∧ PKUCallID < numRegisteredPKUCalls)) ∨
      (∃ did, c = .pkuRestore did ∧ ¬(0 ≤ s.getCurrentDid ∧ s.getCurrentDid < numDomains))) ∧
    (∀ c, Native.step hook sn c = none ↔
      ∃ PKUCallID, c = .pkuSwitch PKUCallID ∧ ¬(0 ≤ PKUCallID ∧ PKUCallID < numRegisteredPKUCalls)) :=
  ⟨Guest.step_none h hook, Native.step_none hn hook⟩

def restoredFar : Guest.State :=
  (((Guest.initial 0).pkuRestore 99).getD (0, Guest.initial 0)).2

theorem undefined_only_out_of_range_restoredFar :
    Guest.Reachable restoredFar ∧ Native.Reachable (Native.initial 0) ∧
    (∀ c, Guest.step Guest.idleHook restoredFar c = none ↔
      (∃ PKUCallID, c = .pkuSwitch PKUCallID ∧ ¬(0 ≤ PKUCallID ∧ PKUCallID < numRegisteredPKUCalls)) ∨
      (∃ did, c = .pkuRestore did ∧
        ¬(0 ≤ restoredFar.getCurrentDid ∧ restoredFar.getCurrentDid < numDomains))) ∧
    (∀ c, Native.step Guest.idleHook (Native.initial 0) c = none ↔
      ∃ PKUCallID, c = .pkuSwitch PKUCallID ∧ ¬(0 ≤ PKUCallID ∧ PKUCallID < numRegisteredPKUCalls)) :=
  have h : Guest.Reachable restoredFar := .step Guest.idleHook (.pkuRestore 99) (.initial 0) rfl
  ⟨h, .initial 0, undefined_only_out_of_range h (.initial 0) Guest.idleHook⟩

end PkuwaProofs

namespace PkuwaProofs.Native

variable {sn sn' : Core} {hook : Hook} {c : Call} {r : Int}

theorem step_keys_pkru (h : step hook sn c = some (r, sn')) :
    (sn'.keys = sn.keys ∨ ∃ b : Fin numDomains,
      sn'.keys = Function.update sn.keys b ⟨b.val.toUInt16, (sn.keys b).perm, true⟩) ∧
    (sn'.pkru = sn.pkru ∨
      ∃ d : Fin numDomains, sn'.pkru = setPkeyValue sn.pkru (sn.keys d).pkey (sn.keys d).perm) := by
  cases c with
  | pkuCreateDomain flags =>
    obtain ⟨-, hp, ⟨hk, -⟩ | ⟨b, -, hk⟩⟩ := Core.createDomainWith_cases (Option.some.inj h)
    · exact ⟨.inl hk, .inl hp⟩
    · exact ⟨.inr ⟨b, hk⟩, .inl hp⟩
  | registerPKUCall did entry =>
    obtain ⟨hk, hp, -⟩ := Core.registerPKUCall_cases (Option.some.inj h)
    exact ⟨.inl hk, .inl hp⟩
  | pkuDomainAssignPkey did pkey flags AccessRights =>
    obtain ⟨hk, -, ⟨rfl, -⟩ | ⟨-, hd, -, rfl⟩⟩ := Core.domainAssignPkey_cases (Option.some.inj h)
    · exact ⟨.inl rfl, .inl rfl⟩
    · obtain ⟨d, hd', -⟩ := Core.domainExists_iff.mp hd
      obtain rfl := slot?_eq_some.mp hd'
      exact ⟨.inl rfl, .inr ⟨d, by simp [Core.keyAt_val]⟩⟩
  | pkuSwitch PKUCallID =>
    rw [step, pkuSwitch_eq] at h
    obtain ⟨call, -, h⟩ := Option.bind_eq_some.mp h
    obtain ⟨key, hkey, h⟩ := Option.bind_eq_some.mp h
    obtain ⟨d, -, rfl⟩ := Core.key?_eq_some.mp hkey
    cases h
    exact ⟨.inl rfl, .inr ⟨d, rfl⟩⟩
  | readPkru =>
    rw [eq_snd_of_some h, readPkru, Core.readPKRUWith_snd]
    exact ⟨.inl rfl, .inl rfl⟩
  | _ => rw [eq_snd_of_some h]; exact ⟨.inl rfl, .inl rfl⟩

theorem Reachable.perm_zero (h : Reachable sn) (d : Fin numDomains) : (sn.keys d).perm = 0 := by
  induction h generalizing d with
  | initial pkru => by_cases hd : d = 0 <;> simp [Native.initial, Native.pkuInitCtor, Core.zero, hd, PKUKey.zero]
  | step hook c _ hs ih =>
    rcases (step_keys_pkru hs).1 with hk | ⟨b, hk⟩
    · rw [hk]; exact ih d
    · rw [hk]
      by_cases hdb : d = b
      · subst hdb; simpa using ih d
      · rw [Function.update_noteq hdb]; exact ih d

theorem native_never_revokes (hn : Reachable sn) (hs : step hook sn c = some (r, sn'))
    (hp : sn.pkru ≠ 0) (k : Nat) : Guest.revokes sn.pkru sn'.pkru k = false := by
  rcases (step_keys_pkru hs).2 with he | ⟨d, he⟩
  · rw [he]; exact Guest.grants_self _ _
  · rw [he, hn.perm_zero d]
    exact Guest.revokes_setPkeyValue_zero _ _ hp k

theorem native_never_revokes_switch :
    Reachable (initial pkruFallback) ∧
    step Guest.idleHook (initial pkruFallback) (.pkuSwitch 0) = some (0, (initial pkruFallback).setPkey 0 0) ∧
    (initial pkruFallback).pkru ≠ 0 ∧
    Guest.revokes (initial pkruFallback).pkru ((initial pkruFallback).setPkey 0 0).pkru 0 = false :=
  have hs : step Guest.idleHook (initial pkruFallback) (.pkuSwitch 0) = some (0, (initial pkruFallback).setPkey 0 0) :=
    rfl
  have hp : (initial pkruFallback).pkru ≠ 0 := by decide
  ⟨.initial _, hs, hp, native_never_revokes (.initial _) hs hp 0⟩

end PkuwaProofs.Native
