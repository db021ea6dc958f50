import PkuwaProofs.Guest.Teardown

namespace PkuwaProofs.Guest

structure Setup where
  gInitialized : Bool
  initialized : Bool
  mmapAddr : Nat

def State.setup (s : State) : Setup := ⟨s.gInitialized, s.gData.initialized, s.mmapAddr⟩

inductive SetupMove : Call → Setup → Setup → Prop
  | frame (c : Call) (u : Setup) : SetupMove c u u
  | init (flags pagesize : Int) (u : Setup) : u.gInitialized = false → u.initialized = false →
      SetupMove (.pkuInit flags pagesize) u { u with gInitialized := true, initialized := true }
  | map (c : Call) (u : Setup) (addr : Nat) : u.mmapAddr = 0 →
      SetupMove c u { u with mmapAddr := addr }

namespace State

variable {s s' : State} {hook : Hook} {r : Int}

theorem pkuSwitch_some {PKUCallID : Int} (h : s.pkuSwitch PKUCallID = some (r, s')) :
    ∃ (did : Int) (key : PKUKey), r = 0 ∧ s' = (s.setPkey key.pkey key.perm).setCurrentDid did := by
  rw [pkuSwitch_eq] at h
  obtain ⟨call, -, h⟩ := Option.bind_eq_some.mp h
  obtain ⟨key, -, h⟩ := Option.bind_eq_some.mp h
  cases h
  exact ⟨_, _, rfl, rfl⟩

theorem pkuRestore_some {did : Int} (h : s.pkuRestore did = some (r, s')) :
    ∃ key : PKUKey, r = 0 ∧
      s' = (s.setPkey key.pkey (pkeyDisableAccess ||| pkeyDisableWrite)).setCurrentDid did := by
  rw [pkuRestore_eq] at h
  obtain ⟨key, -, h⟩ := Option.bind_eq_some.mp h
  cases h
  exact ⟨_, rfl, rfl⟩

theorem pkuDomainFree_moves {domain : Int} (h : s.pkuDomainFree domain = some (r, s')) :
    s'.setup = s.setup := by
  unfold pkuDomainFree at h
  split_ifs at h
  · cases h; rfl
  · cases h; rfl
  · cases h; rfl
  · obtain ⟨s1, h1, h⟩ := Option.map_eq_some'.mp h
    unfold callUserHandlers at h1
    dsimp only at h1
    split_ifs at h1
    cases h1; cases h
    rfl

theorem pkuPkeyFree_moves {pkey : Int} (h : s.pkuPkeyFree pkey = some (r, s')) :
    s'.setup = s.setup := by
  unfold pkuPkeyFree at h
  simp only [gLazyFree, Bool.false_eq_true, ↓reduceIte] at h
  split_ifs at h
  · cases h; rfl
  · have he := pkuDomainFree_moves h
    exact he

theorem pkuInit_moves (flags pagesize : Int) :
    SetupMove (.pkuInit flags pagesize) s.setup (s.pkuInit flags pagesize).2.setup := by
  unfold pkuInit doInit
  split_ifs with hg hi
  · exact .frame _ _
  · exact .frame _ _
  · exact .frame _ _
  · exact .frame _ _
  · exact .init _ _ _ (by simpa [setup] using hg) (by simpa [setup] using hi)

theorem pkuMprotect_moves (c : Call) (addr len : Nat) (prot : Int) :
    SetupMove c s.setup (s.pkuMprotect hook addr len prot).2.setup := by
  have protect (s1 : State) :
      (if s1.mmapAddr ≠ 0 then (s1.domainProtect hook s1.mmapAddr len 0).2 else s1).setup =
        s1.setup := by
    split_ifs <;> rfl
  unfold pkuMprotect
  dsimp only
  rw [protect]
  split_ifs with h
  · exact .map c s.setup _ h.2
  · exact .frame _ _

end State

open State in
theorem step_moves {s s' : State} {hook : Hook} {c : Call} {r : Int}
    (h : step hook s c = some (r, s')) : SetupMove c s.setup s'.setup := by
  have frame (he : s'.setup = s.setup) : SetupMove c s.setup s'.setup := he ▸ .frame _ _
  cases c with
  | pkuInit flags pagesize => rw [eq_snd_of_some h]; exact pkuInit_moves flags pagesize
  | pkuDomainFree domain => exact frame (pkuDomainFree_moves h)
  | pkuPkeyFree pkey => exact frame (pkuPkeyFree_moves h)
  | pkuMprotect addr len prot => rw [eq_snd_of_some h]; exact pkuMprotect_moves _ addr len prot
  | pkuPkeyMprotect addr len prot pkey =>
    rw [eq_snd_of_some h]; exact pkuMprotect_moves _ addr len prot
  | pkuSwitch PKUCallID =>
    obtain ⟨_, _, -, rfl⟩ := pkuSwitch_some h
    exact .frame _ _
  | pkuRestore did =>
    obtain ⟨_, -, rfl⟩ := pkuRestore_some h
    exact .frame _ _
  | pkuPkeyAlloc flags AccessRights =>
    rw [eq_snd_of_some h]
    unfold State.pkuPkeyAlloc
    split_ifs <;> exact .frame _ _
  | pkuDomainAssignPkey did pkey flags AccessRights =>
    rw [eq_snd_of_some h]
    unfold State.pkuDomainAssignPkey
    split_ifs <;> exact .frame _ _
  | freeHook ptr =>
    rw [eq_snd_of_some h]
    unfold State.freeHook
    split_ifs <;> exact .frame _ _
  | pkuDeinit | pkuCreateDomain | domainProtect | registerPKUCall | readPKRU | naiveMmap | pkuMmap
  | pkuMunmap | enableSectionGuardPage | mallocHook =>
    rw [eq_snd_of_some h]; exact .frame _ _

variable {s s' : State}

theorem SetupMove.flags_agree {c : Call} {u u' : Setup} (he : SetupMove c u u')
    (hu : u.gInitialized = u.initialized) : u'.gInitialized = u'.initialized := by
  cases he with
  | init => rfl
  | _ => assumption

theorem Reachable.flags_agree (h : Reachable s) : s.gInitialized = s.gData.initialized := by
  induction h with
  | initial pkru => rfl
  | step hook c _ hs ih => exact (step_moves hs).flags_agree ih

def Setup.Persists (u u' : Setup) : Prop :=
  (u.gInitialized = true → u'.gInitialized = true) ∧ (u.initialized = true → u'.initialized = true) ∧
    (u.mmapAddr ≠ 0 → u'.mmapAddr = u.mmapAddr)

theorem Setup.Persists.trans {u u' u'' : Setup} (h : u.Persists u') (h' : u'.Persists u'') :
    u.Persists u'' :=
  ⟨fun hg => h'.1 (h.1 hg), fun hi => h'.2.1 (h.2.1 hi), fun hm => by
    rw [h'.2.2 (by rwa [h.2.2 hm]), h.2.2 hm]⟩

theorem SetupMove.persists {c : Call} {u u' : Setup} (he : SetupMove c u u') : u.Persists u' := by
  cases he with
  | frame => exact ⟨id, id, fun _ => rfl⟩
  | init _ _ _ hg hi => exact ⟨fun _ => rfl, fun _ => rfl, fun _ => rfl⟩
  | map _ _ _ hm => exact ⟨id, id, fun h => absurd hm h⟩

theorem Next.persists (hr : Relation.ReflTransGen Next s s') : s.setup.Persists s'.setup := by
  induction hr with
  | refl => exact ⟨id, id, fun _ => rfl⟩
  | tail _ hn ih =>
    obtain ⟨hook, c, r, hs⟩ := hn
    exact ih.trans (step_moves hs).persists

theorem pkuInit_spec (h : Reachable s) (flags pagesize : Int) :
    s.gInitialized = s.gData.initialized ∧
    s.pkuInit flags pagesize =
      if s.gInitialized then (0, s)
      else if pagesize = pageSizePKU then
        (0, { s with gData := { s.gData with initialized := true }, gInitialized := true })
      else (-1, { s with errno := eacces }) := by
  refine ⟨h.flags_agree, ?_⟩
  unfold State.pkuInit State.doInit
  rw [← h.flags_agree]
  by_cases hg : s.gInitialized
  · simp [hg]
  · by_cases hp : pagesize = pageSizePKU
    · subst hp; simp [hg, pageSizePKU]
    · have hm : (pageSizePKU : Int) ≠ pagesize := Ne.symm hp
      by_cases h1 : -1 = pagesize <;> simp [hg, hp, hm, h1]

theorem pkuInit_spec_rootInit :
    Reachable rootInit ∧ rootInit.gInitialized = rootInit.gData.initialized ∧
    rootInit.pkuInit 0 4095 =
      if rootInit.gInitialized then (0, rootInit)
      else if (4095 : Int) = pageSizePKU then
        (0, { rootInit with gData := { rootInit.gData with initialized := true }, gInitialized := true })
      else (-1, { rootInit with errno := eacces }) :=
  ⟨rootInit_reachable, pkuInit_spec rootInit_reachable 0 4095⟩

theorem setup_persists (hr : Relation.ReflTransGen Next s s') :
    (s.gInitialized = true → s'.gInitialized = true) ∧
    (s.gData.initialized = true → s'.gData.initialized = true) ∧
    (s.mmapAddr ≠ 0 → s'.mmapAddr = s.mmapAddr) :=
  Next.persists hr

def pageHook : Hook := fun _ => ⟨0, initBuf [0x01, 0x2B, 0, 0, 0x10, 0, 0, 0, 0x10, 0]⟩

def initMapped : State := (rootInit.pkuMprotect pageHook 0 4096 3).2

theorem setup_persists_initMapped :
    Relation.ReflTransGen Next initMapped (initMapped.pkuMprotect idleHook 0 8192 1).2 ∧
    initMapped.gInitialized = true ∧ initMapped.gData.initialized = true ∧ initMapped.mmapAddr ≠ 0 ∧
    (initMapped.gInitialized = true →
      (initMapped.pkuMprotect idleHook 0 8192 1).2.gInitialized = true) ∧
    (initMapped.gData.initialized = true →
      (initMapped.pkuMprotect idleHook 0 8192 1).2.gData.initialized = true) ∧
    (initMapped.mmapAddr ≠ 0 →
      (initMapped.pkuMprotect idleHook 0 8192 1).2.mmapAddr = initMapped.mmapAddr) :=
  have hr : Relation.ReflTransGen Next initMapped (initMapped.pkuMprotect idleHook 0 8192 1).2 :=
    .single ⟨idleHook, .pkuMprotect 0 8192 1, 0, rfl⟩
  ⟨hr, rfl, rfl, by decide, setup_persists hr⟩

theorem mprotect_cached (hm : s.mmapAddr ≠ 0) (hr : Relation.ReflTransGen Next s s') (hook : Hook)
    (addr len : Nat) (prot pkey : Int) :
    s'.pkuPkeyMprotect hook addr len prot pkey = (0, (s'.domainProtect hook s.mmapAddr len 0).2) ∧
    s'.pkuMprotect hook addr len prot = (0, (s'.domainProtect hook s.mmapAddr len 0).2) := by
  have hm' : s'.mmapAddr = s.mmapAddr := (Next.persists hr).2.2 hm
  have hp : s'.pkuMprotect hook addr len prot = (0, (s'.domainProtect hook s.mmapAddr len 0).2) := by
    simp [State.pkuMprotect, hm', hm]
  exact ⟨hp, hp⟩

def pageMapped : State := ((initial 0).pkuMprotect pageHook 0 4096 3).2

theorem mprotect_cached_pageMapped :
    pageMapped.mmapAddr ≠ 0 ∧ Relation.ReflTransGen Next pageMapped pageMapped ∧
    pageMapped.pkuPkeyMprotect idleHook 0x2000 4096 0 5 =
      (0, (pageMapped.domainProtect idleHook pageMapped.mmapAddr 4096 0).2) ∧
    pageMapped.pkuMprotect idleHook 0x2000 4096 0 =
      (0, (pageMapped.domainProtect idleHook pageMapped.mmapAddr 4096 0).2) :=
  have hm : pageMapped.mmapAddr ≠ 0 := by decide
  ⟨hm, .refl, mprotect_cached hm .refl idleHook 0x2000 4096 0 5⟩

end PkuwaProofs.Guest
