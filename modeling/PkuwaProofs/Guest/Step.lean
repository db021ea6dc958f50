import PkuwaProofs.Guest.Api

namespace PkuwaProofs.Guest

inductive Call where
  | pkuInit (flags pagesize : Int)
  | pkuDeinit
  | pkuDomainFree (domain : Int)
  | pkuCreateDomain (flags : BitVec 32)
  | pkuPkeyAlloc (flags AccessRights : BitVec 32)
  | pkuPkeyFree (pkey : Int)
  | domainProtect (addr length pkey : Nat)
  | registerPKUCall (did : Int) (entry : Nat)
  | readPKRU
  | pkuDomainAssignPkey (did pkey flags AccessRights : Int)
  | naiveMmap (bytes : BitVec 32) (ptr : Nat)
  | pkuMmap (addr length : Nat) (prot flags fd offset : Int)
  | pkuMunmap (addr len : Nat)
  | pkuMprotect (addr len : Nat) (prot : Int)
  | pkuPkeyMprotect (addr len : Nat) (prot pkey : Int)
  | enableSectionGuardPage (did : Int)
  | pkuSwitch (PKUCallID : Int)
  | pkuRestore (did : Int)
  | mallocHook (bytes : BitVec 32) (ptr : Nat)
  | freeHook (ptr : Nat)

def step (hook : Hook) (s : State) : Call → Option (Int × State)
  | .pkuInit flags pagesize => some (s.pkuInit flags pagesize)
  | .pkuDeinit => some (State.pkuDeinit, s)
  | .pkuDomainFree domain => s.pkuDomainFree domain
  | .pkuCreateDomain flags => some (s.pkuCreateDomain hook flags)
  | .pkuPkeyAlloc flags AccessRights => some (s.pkuPkeyAlloc hook flags AccessRights)
  | .pkuPkeyFree pkey => s.pkuPkeyFree pkey
  | .domainProtect addr length pkey => some (s.domainProtect hook addr length pkey)
  | .registerPKUCall did entry => some (s.registerPKUCall did entry)
  | .readPKRU => some (s.readPKRU hook)
  | .pkuDomainAssignPkey did pkey flags AccessRights =>
    some (s.pkuDomainAssignPkey did pkey flags AccessRights)
  | .naiveMmap bytes ptr => let r := s.naiveMmap bytes ptr; some (r.1, r.2)
  | .pkuMmap addr length prot flags fd offset =>
    let r := s.pkuMmap hook addr length prot flags fd offset; some (r.1, r.2)
  | .pkuMunmap addr len => some (State.pkuMunmap addr len, s)
  | .pkuMprotect addr len prot => some (s.pkuMprotect hook addr len prot)
  | .pkuPkeyMprotect addr len prot pkey => some (s.pkuPkeyMprotect hook addr len prot pkey)
  | .enableSectionGuardPage did => some (State.enableSectionGuardPage did, s)
  | .pkuSwitch PKUCallID => s.pkuSwitch PKUCallID
  | .pkuRestore did => s.pkuRestore did
  | .mallocHook bytes ptr => let r := s.mallocHook bytes ptr; some (r.1, r.2)
  | .freeHook ptr => some (0, s.freeHook hook ptr)

def idleHook : Hook := fun buf => ⟨0, buf⟩

inductive Reachable : State → Prop
  | initial (pkru : BitVec 32) : Reachable (initial pkru)
  | step {s s' : State} {r : Int} (hook : Hook) (c : Call) :
      Reachable s → step hook s c = some (r, s') → Reachable s'

structure Tables where
  keys : Fin numDomains → PKUKey
  registeredPKUCalls : Fin numRegisteredPKUCalls → PKUCall
  pkru : BitVec 32
  currentDid : Int
  domains : Fin numDomains → PKUKey
  ranges : Fin numMprotectRanges → SMprotect

def State.tables (s : State) : Tables :=
  ⟨s.keys, s.registeredPKUCalls, s.pkru, s.currentDid, s.gData.domains, s.gData.ranges⟩

inductive Effect : Call → Tables → Tables → Prop
  | frame (c : Call) (t : Tables) : Effect c t t
  | createDomain (c : Call) (t : Tables) (b : Fin numDomains) :
      Effect c t { t with keys := Function.update t.keys b ⟨b.val.toUInt16, (t.keys b).perm, true⟩ }
  | registerPKUCall (t : Tables) (i : Fin numRegisteredPKUCalls) (d : Fin numDomains)
      (entry : Nat) : (t.registeredPKUCalls i).entry = 0 → (t.keys d).used = true →
      Effect (.registerPKUCall d entry) t
        { t with registeredPKUCalls := Function.update t.registeredPKUCalls i ⟨d, entry⟩ }
  | commit (t : Tables) (did pkey flags AccessRights : Int) (d : Fin numDomains) :
      did = d → (t.keys d).used = true →
      Effect (.pkuDomainAssignPkey did pkey flags AccessRights) t
        { t with pkru := setPkeyValue t.pkru (t.keys d).pkey (t.keys d).perm }
  | switch (t : Tables) (i : Fin numRegisteredPKUCalls) (d : Fin numDomains) :
      (t.registeredPKUCalls i).did = d →
      Effect (.pkuSwitch i) t
        { t with
          pkru := setPkeyValue t.pkru (t.keys d).pkey (t.keys d).perm
          currentDid := d }
  | restore (t : Tables) (cur : Fin numDomains) (did : Int) : t.currentDid = cur →
      Effect (.pkuRestore did) t
        { t with
          pkru := setPkeyValue t.pkru (t.keys cur).pkey (pkeyDisableAccess ||| pkeyDisableWrite)
          currentDid := did }
  | clearDomains (c : Call) (t : Tables) (D : Fin numDomains → PKUKey) :
      (∀ d, D d = t.domains d ∨ D d = { t.domains d with used := false } ∨ D d = PKUKey.zero) →
      Effect c t { t with domains := D }

namespace State

variable {s s' : State} {hook : Hook} {c : Call} {r : Int}

theorem callUserHandlers_tables (h : s.callUserHandlers = some s') : s'.tables = s.tables := by
  unfold callUserHandlers at h
  dsimp only at h
  split_ifs at h
  cases h
  rfl

theorem pkuDomainFree_tables {domain : Int} (h : s.pkuDomainFree domain = some (r, s')) :
    ∃ D, s'.tables = { s.tables with domains := D } ∧
      ∀ d, D d = s.gData.domains d ∨ D d = PKUKey.zero := by
  unfold pkuDomainFree at h
  split_ifs at h
  · cases h; exact ⟨_, rfl, fun _ => .inl rfl⟩
  · cases h; exact ⟨_, rfl, fun _ => .inl rfl⟩
  · cases h; exact ⟨_, rfl, fun _ => .inl rfl⟩
  · obtain ⟨s1, h1, h⟩ := Option.map_eq_some'.mp h
    obtain ⟨rfl, rfl⟩ := Prod.mk.inj h
    obtain ⟨hk, hc, hp, hcur, hd, hr⟩ := Tables.mk.inj (callUserHandlers_tables h1)
    refine ⟨storeAt s1.gData.domains domain fun dom =>
      { dom with pkey := 0, perm := 0, used := false }, ?_, fun d => ?_⟩
    · simp only [tables, hk, hc, hp, hcur, hr]
    · rw [← hd]
      exact (storeAt_cases _ _ _ d).imp id fun h => h.trans rfl

theorem pkuPkeyFree_effect {pkey : Int} (h : s.pkuPkeyFree pkey = some (r, s')) :
    Effect (.pkuPkeyFree pkey) s.tables s'.tables := by
  unfold pkuPkeyFree at h
  simp only [gLazyFree, Bool.false_eq_true, ↓reduceIte] at h
  split_ifs at h
  · cases h; exact .frame _ _
  · obtain ⟨D, hs', hD⟩ := pkuDomainFree_tables h
    rw [hs']
    refine .clearDomains _ _ D fun d => ?_
    rcases hD d with hd | hd
    · by_cases hu : (s.gData.domains d).used <;> simp [tables, hd, hu]
    · exact .inr (.inr hd)

theorem pkuCreateDomain_effect (c : Call) (flags : BitVec 32) :
    Effect c s.tables (s.pkuCreateDomain hook flags).2.tables := by
  unfold pkuCreateDomain
  generalize h : s.toCore.createDomainWith [0x01, 0x21] hook = out
  obtain ⟨r, c⟩ := out
  obtain ⟨hc, hp, ⟨hk, -⟩ | ⟨b, -, hk⟩⟩ := Core.createDomainWith_cases h
  · have he : (s.withCore (r, c)).2.tables = s.tables := by
      simp [tables, hk, hc, hp]
    exact he ▸ .frame _ _
  · have he : (s.withCore (r, c)).2.tables =
        { s.tables with
          keys := Function.update s.keys b ⟨b.val.toUInt16, (s.keys b).perm, true⟩ } := by
      simp [tables, hk, hc, hp]
    exact he ▸ .createDomain _ _ b

theorem registerPKUCall_effect (did : Int) (entry : Nat) :
    Effect (.registerPKUCall did entry) s.tables (s.registerPKUCall did entry).2.tables := by
  unfold registerPKUCall
  generalize h : s.toCore.registerPKUCall did entry = out
  obtain ⟨r, c⟩ := out
  obtain ⟨hk, hp, -, ⟨hc, -⟩ | ⟨i, hi, -, hd, hc⟩⟩ := Core.registerPKUCall_cases h
  · have he : (s.withCore (r, c)).2.tables = s.tables := by
      simp [tables, hk, hc, hp]
    exact he ▸ .frame _ _
  · obtain ⟨j, hj, hu⟩ := Core.domainExists_iff.mp hd
    obtain rfl := slot?_eq_some.mp hj
    have he : (s.withCore (r, c)).2.tables =
        { s.tables with
          registeredPKUCalls := Function.update s.registeredPKUCalls i ⟨j, entry⟩ } := by
      simp [tables, hk, hc, hp]
    exact he ▸ .registerPKUCall _ i j entry (Core.firstFreeCall_entry hi) hu

theorem pkuSwitch_eq (PKUCallID : Int) :
    s.pkuSwitch PKUCallID = (s.call? PKUCallID).bind fun call => (s.key? call.did).bind fun key =>
      some (0, (s.setPkey key.pkey key.perm).setCurrentDid call.did) := rfl

theorem pkuSwitch_effect {PKUCallID : Int} (h : s.pkuSwitch PKUCallID = some (r, s')) :
    Effect (.pkuSwitch PKUCallID) s.tables s'.tables := by
  rw [pkuSwitch_eq] at h
  obtain ⟨call, hcall, h⟩ := Option.bind_eq_some.mp h
  obtain ⟨key, hkey, h⟩ := Option.bind_eq_some.mp h
  obtain ⟨i, hi, rfl⟩ := Core.call?_eq_some.mp hcall
  obtain rfl := slot?_eq_some.mp hi
  obtain ⟨d, hd, rfl⟩ := Core.key?_eq_some.mp hkey
  obtain ⟨rfl, rfl⟩ := Prod.mk.inj (Option.some.inj h)
  have hdid := slot?_eq_some.mp hd
  have he : ((s.setPkey (s.keys d).pkey (s.keys d).perm).setCurrentDid
      (s.registeredPKUCalls i).did).tables =
      { s.tables with
        pkru := setPkeyValue s.pkru (s.keys d).pkey (s.keys d).perm
        currentDid := d } := by
    simp [tables, hdid]
  exact he ▸ .switch _ i d hdid

theorem pkuRestore_eq (did : Int) :
    s.pkuRestore did = (s.key? s.getCurrentDid).bind fun key =>
      some (0, (s.setPkey key.pkey (pkeyDisableAccess ||| pkeyDisableWrite)).setCurrentDid did) :=
  rfl

theorem pkuRestore_effect {did : Int} (h : s.pkuRestore did = some (r, s')) :
    Effect (.pkuRestore did) s.tables s'.tables := by
  rw [pkuRestore_eq] at h
  obtain ⟨key, hkey, h⟩ := Option.bind_eq_some.mp h
  obtain ⟨d, hd, rfl⟩ := Core.key?_eq_some.mp hkey
  obtain ⟨rfl, rfl⟩ := Prod.mk.inj (Option.some.inj h)
  exact .restore _ d did (slot?_eq_some.mp hd)

theorem pkuDomainAssignPkey_effect (did pkey flags AccessRights : Int) :
    Effect (.pkuDomainAssignPkey did pkey flags AccessRights) s.tables
      (s.pkuDomainAssignPkey did pkey flags AccessRights).2.tables := by
  unfold pkuDomainAssignPkey
  split
  · exact .frame _ _
  · generalize h : s.toCore.domainAssignPkey did AccessRights = out
    obtain ⟨r, c⟩ := out
    obtain ⟨-, -, ⟨rfl, -⟩ | ⟨-, hd, -, rfl⟩⟩ := Core.domainAssignPkey_cases h
    · exact .frame _ _
    · obtain ⟨d, hd', hu⟩ := Core.domainExists_iff.mp hd
      obtain rfl := slot?_eq_some.mp hd'
      simpa only [Core.keyAt_val] using .commit s.tables d pkey flags AccessRights d rfl hu

theorem pkuPkeyAlloc_effect (c : Call) (flags AccessRights : BitVec 32) :
    Effect c s.tables (s.pkuPkeyAlloc hook flags AccessRights).2.tables := by
  unfold pkuPkeyAlloc
  split
  · exact .frame _ _
  · exact pkuCreateDomain_effect c flags

theorem pkuMprotect_tables (addr len : Nat) (prot : Int) :
    (s.pkuMprotect hook addr len prot).2.tables = s.tables := by
  unfold pkuMprotect
  dsimp only
  split_ifs <;> rfl

theorem freeHook_tables (ptr : Nat) : (s.freeHook hook ptr).tables = s.tables := by
  unfold freeHook
  split_ifs <;> rfl

theorem pkuInit_tables (flags pagesize : Int) : (s.pkuInit flags pagesize).2.tables = s.tables := by
  unfold pkuInit doInit
  dsimp only
  split_ifs <;> rfl

@[simp] theorem tables_keys : s.tables.keys = s.keys := rfl

@[simp] theorem tables_registeredPKUCalls : s.tables.registeredPKUCalls = s.registeredPKUCalls :=
  rfl

@[simp] theorem tables_pkru : s.tables.pkru = s.pkru := rfl

@[simp] theorem tables_currentDid : s.tables.currentDid = s.currentDid := rfl

@[simp] theorem tables_domains : s.tables.domains = s.gData.domains := rfl

@[simp] theorem tables_ranges : s.tables.ranges = s.gData.ranges := rfl

end State

theorem eq_snd_of_some {x : Int × State} {r : Int} {s' : State} (h : some x = some (r, s')) :
    s' = x.2 := by
  cases h; rfl

open State in
theorem step_effect {s s' : State} {hook : Hook} {c : Call} {r : Int}
    (h : step hook s c = some (r, s')) : Effect c s.tables s'.tables := by
  cases c with
  | pkuDomainFree domain =>
    obtain ⟨D, hs', hD⟩ := pkuDomainFree_tables h
    exact hs' ▸ .clearDomains _ _ D fun d => (hD d).imp id .inr
  | pkuPkeyFree pkey => exact pkuPkeyFree_effect h
  | pkuSwitch PKUCallID => exact pkuSwitch_effect h
  | pkuRestore did => exact pkuRestore_effect h
  | pkuInit flags pagesize =>
    rw [eq_snd_of_some h, pkuInit_tables]; exact .frame _ _
  | pkuCreateDomain flags => rw [eq_snd_of_some h]; exact pkuCreateDomain_effect _ flags
  | pkuPkeyAlloc flags AccessRights =>
    rw [eq_snd_of_some h]; exact pkuPkeyAlloc_effect _ flags AccessRights
  | registerPKUCall did entry => rw [eq_snd_of_some h]; exact registerPKUCall_effect did entry
  | pkuDomainAssignPkey did pkey flags AccessRights =>
    rw [eq_snd_of_some h]; exact pkuDomainAssignPkey_effect did pkey flags AccessRights
  | pkuMprotect addr len prot =>
    rw [eq_snd_of_some h, pkuMprotect_tables]; exact .frame _ _
  | pkuPkeyMprotect addr len prot pkey =>
    rw [eq_snd_of_some h, pkuPkeyMprotect, pkuMprotect_tables]; exact .frame _ _
  | readPKRU =>
    have he : (s.readPKRU hook).2.tables = s.tables := by
      simp only [readPKRU, tables, withCore_toCore, Core.readPKRUWith_snd]; rfl
    rw [eq_snd_of_some h, he]; exact .frame _ _
  | freeHook ptr => rw [eq_snd_of_some h, freeHook_tables]; exact .frame _ _
  | pkuDeinit | domainProtect | naiveMmap | pkuMmap | pkuMunmap | enableSectionGuardPage
  | mallocHook =>
    rw [eq_snd_of_some h]; exact .frame _ _

end PkuwaProofs.Guest
