import PkuwaProofs.Guest.Invariants

namespace PkuwaProofs.Guest

variable {c : Call} {t t' : Tables} {s s' : State} {r : Int}

theorem Effect.ranges_eq (he : Effect c t t') : t'.ranges = t.ranges := by
  cases he <;> rfl

theorem Reachable.ranges_unused (h : Reachable s) (rid : Fin numMprotectRanges) :
    (s.gData.ranges rid).used = false := by
  induction h with
  | initial pkru => rfl
  | step hook c _ hs ih =>
    have hr := (step_effect hs).ranges_eq
    simp only [State.tables_ranges] at hr
    rw [hr]
    exact ih

theorem callUserHandlers_of_unused (h : ∀ rid, (s.gData.ranges rid).used = false) :
    s.callUserHandlers = some s := by
  have hnil : ((List.finRange numMprotectRanges).filterMap fun rid =>
      if (s.gData.ranges rid).used then some (s.gData.ranges rid).addr else none) = [] :=
    List.filterMap_eq_nil_iff.mpr fun rid _ => by simp [h]
  simp only [State.callUserHandlers, hnil]
  simp

theorem pkuDomainFree_ok {domain : Int} (h : s.pkuDomainFree domain = some (0, s')) :
    s.gData.initialized = true ∧ s.domainExists domain = true ∧
      (∀ d, (s.gData.domains d).used = false) ∧ s'.keys = s.keys ∧
      s'.trace = s.trace ++ ((List.finRange numMprotectRanges).filterMap fun rid =>
        if (s.gData.ranges rid).used then some (s.gData.ranges rid).addr else none).map
          (.userHandler s.gData.userHandler) := by
  unfold State.pkuDomainFree at h
  split_ifs at h with hi he hd
  · cases h
  · cases h
  · cases h
  · obtain ⟨s₁, h₁, h⟩ := Option.map_eq_some'.mp h
    obtain ⟨-, rfl⟩ := Prod.mk.inj h
    unfold State.callUserHandlers at h₁
    dsimp only at h₁
    split_ifs at h₁
    cases h₁
    exact ⟨by simpa using hi, by simpa using he, by simpa using hd, rfl, rfl⟩

theorem pkuDomainFree_fail {domain : Int} (h : s.pkuDomainFree domain = some (r, s'))
    (hr : r ≠ 0) : s'.tables = s.tables ∧ s'.trace = s.trace := by
  unfold State.pkuDomainFree at h
  split_ifs at h
  · cases h; exact ⟨rfl, rfl⟩
  · cases h; exact ⟨rfl, rfl⟩
  · cases h; exact ⟨rfl, rfl⟩
  · obtain ⟨s₁, -, h⟩ := Option.map_eq_some'.mp h
    exact absurd (Prod.mk.inj h).1.symm hr

theorem pkuDomainFree_keys {domain : Int} (h : s.pkuDomainFree domain = some (r, s')) :
    s'.keys = s.keys ∧ ∀ did, s'.domainExists did = s.domainExists did := by
  obtain ⟨D, hs', -⟩ := State.pkuDomainFree_tables h
  have hk : s'.keys = s.keys := congrArg Tables.keys hs'
  exact ⟨hk, fun did => by simp [State.domainExists, Core.domainExists, Core.key?, hk]⟩

def rootInit : State := ((initial 0).pkuInit 0 pageSizePKU).2

theorem rootInit_reachable : Reachable rootInit :=
  .step idleHook (.pkuInit 0 pageSizePKU) (.initial 0) rfl

theorem pkuDomainFree_root :
    Reachable rootInit ∧ (rootInit.pkuDomainFree 0).map (·.1) = some 0 ∧
      (rootInit.pkuDomainFree 0).map (fun r => r.2.domainExists 0) = some true ∧
      (rootInit.pkuDomainFree 0).map (fun r => r.2.keys 0) = some ⟨0, 0, true⟩ := by
  have hfree : rootInit.pkuDomainFree 0 = some (0, { rootInit with
      gData := { rootInit.gData with
        domains := storeAt rootInit.gData.domains 0 fun dom =>
          { dom with pkey := 0, perm := 0, used := false } } }) := by
    simp only [State.pkuDomainFree, callUserHandlers_of_unused rootInit_reachable.ranges_unused]
    rfl
  exact ⟨rootInit_reachable, by rw [hfree]; rfl, by rw [hfree]; rfl, by rw [hfree]; rfl⟩

theorem Effect.domains_zero (he : Effect c t t') (hz : ∀ d, t.domains d = PKUKey.zero) (d : Fin numDomains) :
    t'.domains d = PKUKey.zero := by
  cases he with
  | clearDomains _ _ D hD =>
    show D d = _
    rcases hD d with h | h | h <;> rw [h] <;> simp [hz d, PKUKey.zero]
  | _ => exact hz d

theorem Reachable.domains_zero (h : Reachable s) (d : Fin numDomains) : s.gData.domains d = PKUKey.zero := by
  induction h generalizing d with
  | initial pkru => rfl
  | step hook c _ hs ih => exact (step_effect hs).domains_zero ih d

theorem storeAt_fixed {n : Nat} {α : Type} (a : Fin n → α) (i : Int) (f : α → α)
    (h : ∀ j, f (a j) = a j) : storeAt a i f = a := by
  funext j
  rcases storeAt_cases a i f j with hj | hj <;> rw [hj]
  exact h j

theorem pkuDomainFree_inert (h : Reachable s) (domain : Int) :
    s.pkuDomainFree domain =
      some (if !s.gData.initialized then (-1, s)
        else if !s.domainExists domain then (-1, { s with errno := einval }) else (0, s)) := by
  have hz := h.domains_zero
  have hany : ((List.finRange numDomains).any fun did => (s.gData.domains did).used) = false := by
    simp [hz, PKUKey.zero]
  have hstore : storeAt s.gData.domains domain (fun dom => { dom with pkey := 0, perm := 0, used := false }) =
      s.gData.domains := storeAt_fixed _ _ _ fun j => by rw [hz j]; rfl
  simp only [State.pkuDomainFree, hany, callUserHandlers_of_unused h.ranges_unused, hstore,
    Option.map_some', Bool.false_eq_true, if_false]
  split_ifs <;> rfl

theorem pkuPkeyFree_inert (h : Reachable s) (pkey : Int) : s.pkuPkeyFree pkey = s.pkuDomainFree pkey := by
  have hr : ((List.finRange numDomains).any fun rid =>
      (s.gData.ranges (Fin.castLE (by decide) rid)).used) = false := by
    simp [h.ranges_unused]
  have hd : (fun did => if (s.gData.domains did).used then { s.gData.domains did with used := false }
      else s.gData.domains did) = s.gData.domains := by
    funext did; simp [h.domains_zero did, PKUKey.zero]
  simp only [State.pkuPkeyFree, hr, hd, gLazyFree, Bool.false_eq_true, if_false]

theorem teardown_inert (h : Reachable s) (domain pkey : Int) :
    s.pkuDomainFree domain =
      some (if !s.gData.initialized then (-1, s)
        else if !s.domainExists domain then (-1, { s with errno := einval }) else (0, s)) ∧
    s.pkuPkeyFree pkey = s.pkuDomainFree pkey :=
  ⟨pkuDomainFree_inert h domain, pkuPkeyFree_inert h pkey⟩

theorem teardown_inert_rootInit :
    Reachable rootInit ∧
    rootInit.pkuDomainFree 1 =
      some (if !rootInit.gData.initialized then (-1, rootInit)
        else if !rootInit.domainExists 1 then (-1, { rootInit with errno := einval }) else (0, rootInit)) ∧
    rootInit.pkuPkeyFree 1 = rootInit.pkuDomainFree 1 :=
  ⟨rootInit_reachable, teardown_inert rootInit_reachable 1 1⟩

end PkuwaProofs.Guest
