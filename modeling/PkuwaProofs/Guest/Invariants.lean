import PkuwaProofs.Guest.Step
import Mathlib.Logic.Relation

namespace PkuwaProofs.Guest

variable {c : Call} {t t' : Tables}

structure KeysInv (t : Tables) : Prop where
  root : t.keys 0 = ⟨0, 0, true⟩
  used_pkey : ∀ d, (t.keys d).used = true → (t.keys d).pkey.toNat = d.val
  unused_zero : ∀ d, (t.keys d).used = false → t.keys d = PKUKey.zero
  domains_zero : ∀ d, t.domains d = PKUKey.zero

def CallsInv (t : Tables) : Prop :=
  ∀ i, ∃ d : Fin numDomains, (t.registeredPKUCalls i).did = d ∧ (t.keys d).used = true

theorem toNat_toUInt16 (d : Fin numDomains) : d.val.toUInt16.toNat = d.val :=
  UInt16.toNat_ofNat_of_lt (d.isLt.trans (by decide))

theorem Effect.keys_used (he : Effect c t t') {d : Fin numDomains} (hd : (t.keys d).used = true) :
    (t'.keys d).used = true := by
  cases he with
  | createDomain _ _ b =>
    by_cases h : d = b
    · subst h; simp
    · simpa [Function.update_noteq h] using hd
  | _ => exact hd

theorem Effect.keysInv (he : Effect c t t') (hi : KeysInv t) : KeysInv t' := by
  cases he with
  | createDomain _ _ b =>
    have hb := Function.update_apply t.keys b ⟨b.val.toUInt16, (t.keys b).perm, true⟩
    refine ⟨?_, fun d hd => ?_, fun d hd => ?_, hi.domains_zero⟩
    · by_cases h : (0 : Fin numDomains) = b
      · subst h; simp only [hb, if_true, hi.root]; rfl
      · simp only [hb, if_neg h]; exact hi.root
    · by_cases h : d = b
      · simp [hb, h, toNat_toUInt16]
      · simp only [hb, h, if_false] at hd ⊢; exact hi.used_pkey d hd
    · by_cases h : d = b
      · simp [hb, h] at hd
      · simp only [hb, h, if_false] at hd ⊢; exact hi.unused_zero d hd
  | clearDomains _ _ D hD =>
    refine { hi with domains_zero := fun d => ?_ }
    rcases hD d with h | h | h <;> simp [h, hi.domains_zero d, PKUKey.zero]
  | _ => exact { hi with }

theorem Effect.callsInv (he : Effect c t t') (hi : CallsInv t) : CallsInv t' := by
  have hmono : ∀ i, ∃ d : Fin numDomains,
      (t.registeredPKUCalls i).did = d ∧ (t'.keys d).used = true := fun i => by
    obtain ⟨d, hd, hu⟩ := hi i
    exact ⟨d, hd, he.keys_used hu⟩
  cases he with
  | registerPKUCall _ j did entry _ hu =>
    intro i
    by_cases h : i = j
    · subst h; exact ⟨did, by simp, hu⟩
    · simpa [Function.update_noteq h] using hmono i
  | _ => exact hmono

theorem initial_keysInv (pkru : BitVec 32) : KeysInv (initial pkru).tables where
  root := by simp [initial, pkuInitCtor, State.tables]
  used_pkey d hd := by
    by_cases h : d = 0 <;> simp_all [initial, pkuInitCtor, zeroState, State.tables, PKUKey.zero]
  unused_zero d hd := by
    by_cases h : d = 0 <;> simp_all [initial, pkuInitCtor, zeroState, State.tables]
  domains_zero _ := rfl

theorem initial_callsInv (pkru : BitVec 32) : CallsInv (initial pkru).tables :=
  fun _ => ⟨0, rfl, by simp [initial, pkuInitCtor, State.tables]⟩

theorem Reachable.keysInv {s : State} (h : Reachable s) : KeysInv s.tables := by
  induction h with
  | initial pkru => exact initial_keysInv pkru
  | step hook c _ hs ih => exact (step_effect hs).keysInv ih

theorem Reachable.callsInv {s : State} (h : Reachable s) : CallsInv s.tables := by
  induction h with
  | initial pkru => exact initial_callsInv pkru
  | step hook c _ hs ih => exact (step_effect hs).callsInv ih

theorem reachable_keys_shape {s : State} (h : Reachable s) :
    s.keys 0 = ⟨0, 0, true⟩ ∧
    (∀ d, (s.keys d).used = true → (s.keys d).pkey.toNat = d.val) ∧
    (∀ d e, (s.keys d).used = true → (s.keys e).used = true →
      (s.keys d).pkey = (s.keys e).pkey → d = e) ∧
    (∀ d, (s.keys d).used = false → (s.keys d).pkey = 0 ∧ (s.keys d).perm = 0) ∧
    (∀ d, (s.gData.domains d).used = false →
      (s.gData.domains d).pkey = 0 ∧ (s.gData.domains d).perm = 0) := by
  have hi := h.keysInv
  refine ⟨hi.root, hi.used_pkey, fun d e hd he hde => ?_, fun d hd => ?_, fun d _ => ?_⟩
  · have h1 := hi.used_pkey d hd
    have h2 := hi.used_pkey e he
    simp only [State.tables_keys, hde] at h1 h2
    exact Fin.ext (h1.symm.trans h2)
  · have hz := hi.unused_zero d hd
    simp only [State.tables_keys] at hz
    simp [hz, PKUKey.zero]
  · have hz := hi.domains_zero d
    simp only [State.tables_domains] at hz
    simp [hz, PKUKey.zero]

def createdThree : State :=
  ((initial 0).pkuCreateDomain (fun _ => ⟨0, initBuf [0x01, 0x21, 3]⟩) 0).2

theorem createdThree_reachable : Reachable createdThree :=
  .step (fun _ => ⟨0, initBuf [0x01, 0x21, 3]⟩) (.pkuCreateDomain 0) (.initial 0) rfl

theorem keys_shape_createdThree :
    Reachable createdThree ∧ createdThree.keys 0 = ⟨0, 0, true⟩ ∧
    (∀ d, (createdThree.keys d).used = true → (createdThree.keys d).pkey.toNat = d.val) ∧
    (∀ d e, (createdThree.keys d).used = true → (createdThree.keys e).used = true →
      (createdThree.keys d).pkey = (createdThree.keys e).pkey → d = e) ∧
    (∀ d, (createdThree.keys d).used = false →
      (createdThree.keys d).pkey = 0 ∧ (createdThree.keys d).perm = 0) ∧
    (∀ d, (createdThree.gData.domains d).used = false →
      (createdThree.gData.domains d).pkey = 0 ∧ (createdThree.gData.domains d).perm = 0) :=
  ⟨createdThree_reachable, reachable_keys_shape createdThree_reachable⟩

theorem reachable_calls_exist {s : State} (h : Reachable s) (i : Fin numRegisteredPKUCalls) :
    ((s.registeredPKUCalls i).entry ≠ 0 → s.domainExists (s.registeredPKUCalls i).did = true) ∧
      0 ≤ (s.registeredPKUCalls i).did ∧ (s.registeredPKUCalls i).did < numDomains := by
  obtain ⟨d, hd, hu⟩ := h.callsInv i
  simp only [State.tables_keys, State.tables_registeredPKUCalls] at hd hu
  have hex : s.domainExists (s.registeredPKUCalls i).did = true :=
    Core.domainExists_iff.mpr ⟨d, by rw [hd]; simp, hu⟩
  exact ⟨fun _ => hex, Core.domainExists_bounds hex⟩

def callRegistered : State := (createdThree.registerPKUCall 3 7).2

theorem callRegistered_reachable : Reachable callRegistered :=
  .step idleHook (.registerPKUCall 3 7) createdThree_reachable rfl

theorem calls_exist_callRegistered :
    Reachable callRegistered ∧ (callRegistered.registeredPKUCalls 0).entry ≠ 0 ∧
      ((callRegistered.registeredPKUCalls 0).entry ≠ 0 →
        callRegistered.domainExists (callRegistered.registeredPKUCalls 0).did = true) ∧
      0 ≤ (callRegistered.registeredPKUCalls 0).did ∧
      (callRegistered.registeredPKUCalls 0).did < numDomains :=
  ⟨callRegistered_reachable, by decide, reachable_calls_exist callRegistered_reachable 0⟩

def Next (s s' : State) : Prop := ∃ hook c r, step hook s c = some (r, s')

variable {s s' : State}

theorem Effect.registered_stable (he : Effect c t t') {i : Fin numRegisteredPKUCalls}
    (hi : (t.registeredPKUCalls i).entry ≠ 0) : t'.registeredPKUCalls i = t.registeredPKUCalls i := by
  cases he with
  | registerPKUCall _ j d entry hj _ =>
    have hij : i ≠ j := fun h => hi (h ▸ hj)
    simp [Function.update_noteq hij]
  | _ => rfl

theorem Next.registered_stable (h : Relation.ReflTransGen Next s s')
    {i : Fin numRegisteredPKUCalls} (hi : (s.registeredPKUCalls i).entry ≠ 0) :
    s'.registeredPKUCalls i = s.registeredPKUCalls i := by
  induction h with
  | refl => rfl
  | @tail b _ _ hn ih =>
    obtain ⟨hook, c, r, hs⟩ := hn
    have hb : (b.tables.registeredPKUCalls i).entry ≠ 0 := by simpa [ih] using hi
    simpa [ih] using (step_effect hs).registered_stable hb

theorem registerPKUCall_ok {did : Int} {entry : Nat}
    (h : 0 ≤ (s.registerPKUCall did entry).1) :
    ∃ i : Fin numRegisteredPKUCalls, (s.registerPKUCall did entry).1 = i ∧
      (s.registeredPKUCalls i).entry = 0 ∧
      (s.registerPKUCall did entry).2.registeredPKUCalls =
        Function.update s.registeredPKUCalls i ⟨did, entry⟩ := by
  unfold State.registerPKUCall at h ⊢
  generalize hc : s.toCore.registerPKUCall did entry = out at h ⊢
  obtain ⟨r, c⟩ := out
  obtain ⟨-, -, -, ⟨-, hr⟩ | ⟨i, hi, rfl, -, hcalls⟩⟩ := Core.registerPKUCall_cases hc
  · exact absurd h (by simpa using hr)
  · exact ⟨i, rfl, Core.firstFreeCall_entry hi, by simpa using hcalls⟩

theorem registerPKUCall_keeps {did did' : Int} {entry entry' : Nat} (hentry : entry ≠ 0)
    (h : 0 ≤ (s.registerPKUCall did entry).1)
    (hrun : Relation.ReflTransGen Next (s.registerPKUCall did entry).2 s')
    (h' : 0 ≤ (s'.registerPKUCall did' entry').1) :
    ∃ i : Fin numRegisteredPKUCalls, (s.registerPKUCall did entry).1 = i ∧
      s'.registeredPKUCalls i = ⟨did, entry⟩ ∧
      (s'.registerPKUCall did' entry').1 ≠ (s.registerPKUCall did entry).1 := by
  obtain ⟨i, hr, -, hcalls⟩ := registerPKUCall_ok h
  have hslot : (s.registerPKUCall did entry).2.registeredPKUCalls i = ⟨did, entry⟩ := by
    simp [hcalls]
  have hkeep : s'.registeredPKUCalls i = ⟨did, entry⟩ :=
    (Next.registered_stable hrun (by simpa [hslot] using hentry)).trans hslot
  obtain ⟨j, hj, hfree, -⟩ := registerPKUCall_ok h'
  refine ⟨i, hr, hkeep, fun hji => ?_⟩
  have hij : j = i := Fin.ext (by rw [hj, hr] at hji; exact_mod_cast hji)
  exact hentry (by simpa [hij, hkeep] using hfree)

theorem registerPKUCall_null_reused :
    Reachable createdThree ∧ (createdThree.registerPKUCall 3 0).1 = 0 ∧
      (createdThree.registerPKUCall 3 0).2.registeredPKUCalls 0 = ⟨3, 0⟩ ∧
      ((createdThree.registerPKUCall 3 0).2.registerPKUCall 0 7).1 = 0 ∧
      ((createdThree.registerPKUCall 3 0).2.registerPKUCall 0 7).2.registeredPKUCalls 0 = ⟨0, 7⟩ :=
  ⟨createdThree_reachable, rfl, rfl, rfl, rfl⟩

theorem Effect.key_stable (he : Effect c t t') (hi : KeysInv t) {d : Fin numDomains}
    (hd : (t.keys d).used = true) : t'.keys d = t.keys d := by
  cases he with
  | createDomain _ _ b =>
    by_cases h : d = b
    · subst h
      have hp : (t.keys d).pkey = d.val.toUInt16 :=
        UInt16.toNat.inj ((hi.used_pkey d hd).trans (toNat_toUInt16 d).symm)
      show Function.update t.keys d _ d = _
      rw [Function.update_same, ← hp, ← hd]
    · exact Function.update_noteq h _ _
  | _ => rfl

theorem Next.keys_stable (h : Reachable s) (hr : Relation.ReflTransGen Next s s') :
    Reachable s' ∧ ∀ d, (s.keys d).used = true → s'.keys d = s.keys d := by
  induction hr with
  | refl => exact ⟨h, fun _ _ => rfl⟩
  | @tail b _ _ hn ih =>
    obtain ⟨hook, c, r, hs⟩ := hn
    obtain ⟨hb, hk⟩ := ih
    refine ⟨.step hook c hb hs, fun d hd => ?_⟩
    have hbd : (b.tables.keys d).used = true := by rw [State.tables_keys, hk d hd]; exact hd
    rw [← hk d hd]
    simpa using (step_effect hs).key_stable hb.keysInv hbd

theorem registry_grows (h : Reachable s) (hr : Relation.ReflTransGen Next s s') :
    (∀ d, (s.keys d).used = true → s'.keys d = s.keys d) ∧
    (∀ i, (s.registeredPKUCalls i).entry ≠ 0 → s'.registeredPKUCalls i = s.registeredPKUCalls i) :=
  ⟨(Next.keys_stable h hr).2, fun _ hi => Next.registered_stable hr hi⟩

theorem registry_grows_callRegistered :
    Reachable callRegistered ∧
    Relation.ReflTransGen Next callRegistered (callRegistered.registerPKUCall 0 9).2 ∧
    (callRegistered.registeredPKUCalls 0).entry ≠ 0 ∧
    (∀ d, (callRegistered.keys d).used = true →
      (callRegistered.registerPKUCall 0 9).2.keys d = callRegistered.keys d) ∧
    (∀ i, (callRegistered.registeredPKUCalls i).entry ≠ 0 →
      (callRegistered.registerPKUCall 0 9).2.registeredPKUCalls i =
        callRegistered.registeredPKUCalls i) :=
  have hr : Relation.ReflTransGen Next callRegistered (callRegistered.registerPKUCall 0 9).2 :=
    .single ⟨idleHook, .registerPKUCall 0 9, _, rfl⟩
  ⟨callRegistered_reachable, hr, by decide, registry_grows callRegistered_reachable hr⟩

theorem calls_exhausted (hfull : ∀ i, (s.registeredPKUCalls i).entry ≠ 0)
    (hr : Relation.ReflTransGen Next s s') (did : Int) (entry : Nat) :
    s'.registerPKUCall did entry = (if s'.domainExists did then -eacces else -einval, s') := by
  have hnone : s'.toCore.firstFreeCall = none := List.find?_eq_none.mpr fun i _ => by
    simpa [Next.registered_stable hr (hfull i)] using hfull i
  unfold State.registerPKUCall Core.registerPKUCall
  cases hd : s'.domainExists did <;> simp only [State.domainExists] at hd <;>
    simp [hd, hnone, State.withCore, State.domainExists]

def callsFull : State := { initial 0 with registeredPKUCalls := fun _ => ⟨0, 1⟩ }

theorem calls_exhausted_callsFull :
    (∀ i, (callsFull.registeredPKUCalls i).entry ≠ 0) ∧
    Relation.ReflTransGen Next callsFull callsFull ∧
    callsFull.registerPKUCall 0 2 = (if callsFull.domainExists 0 then -eacces else -einval, callsFull) :=
  have hfull : ∀ i, (callsFull.registeredPKUCalls i).entry ≠ 0 := fun _ => Nat.one_ne_zero
  ⟨hfull, .refl, calls_exhausted hfull .refl 0 2⟩

end PkuwaProofs.Guest
