import PkuwaProofs.Guest.Invariants
import PkuwaProofs.Guest.CallGate

namespace PkuwaProofs.Guest

/-- A statement of a macro program. `enter f` is `PKUCALL(f(...))` up to and including the
call of `f`, and `leave` is the `PKURestore` that closes the innermost open `PKUCALL`; what
the body of `f` does runs as the statements between them. -/
inductive Stmt where
  | register (did : Int) (f : Nat)
  | enter (f : Nat)
  | leave
  | api (c : Call)

structure Prog where
  state : State
  ids : Nat → Option Int
  saved : List Int

namespace Prog

def pkucallId (p : Prog) (f : Nat) : Int := (p.ids f).getD 0

def init (pkru : BitVec 32) : Prog := ⟨initial pkru, fun _ => none, []⟩

def exec (hook : Hook) (p : Prog) : Stmt → Option Prog
  | .register did f =>
    let r := p.state.registerPKUCall did f
    some { p with state := r.2, ids := Function.update p.ids f (some r.1) }
  | .enter f => do
    let did := p.state.getCurrentDid
    let r ← p.state.pkuSwitch (p.pkucallId f)
    some { p with state := { r.2 with trace := r.2.trace ++ [.invoke f] }, saved := did :: p.saved }
  | .leave =>
    match p.saved with
    | [] => none
    | did :: saved => do
      let r ← p.state.pkuRestore did
      some { p with state := r.2, saved := saved }
  | .api c => do
    let r ← step hook p.state c
    some { p with state := r.2 }

inductive Reachable : Prog → Prop
  | init (pkru : BitVec 32) : Reachable (init pkru)
  | exec {p p' : Prog} (hook : Hook) (st : Stmt) : Reachable p → exec hook p st = some p' →
      Reachable p'

def IdsInv (p : Prog) : Prop :=
  ∀ f, f ≠ 0 → ∀ i, p.ids f = some i → 0 ≤ i →
    ∃ j : Fin numRegisteredPKUCalls, i = j ∧ (p.state.registeredPKUCalls j).entry = f

variable {p p' : Prog} {hook : Hook} {st : Stmt}

theorem exec_cases (h : exec hook p st = some p') :
    (∃ c, Effect c p.state.tables p'.state.tables) ∧
      (p'.ids = p.ids ∨ ∃ did f, st = .register did f ∧
        p'.state = (p.state.registerPKUCall did f).2 ∧
        p'.ids = Function.update p.ids f (some (p.state.registerPKUCall did f).1)) := by
  cases st with
  | register did f =>
    cases h
    exact ⟨⟨_, State.registerPKUCall_effect did f⟩, .inr ⟨did, f, rfl, rfl, rfl⟩⟩
  | enter f =>
    obtain ⟨⟨r, s₁⟩, hr, h⟩ := Option.bind_eq_some.mp h
    cases h
    have he := State.pkuSwitch_effect hr
    exact ⟨⟨_, he⟩, .inl rfl⟩
  | leave =>
    cases hs : p.saved with
    | nil => simp [exec, hs] at h
    | cons did saved =>
      simp only [exec, hs] at h
      obtain ⟨⟨r, s₁⟩, hr, h⟩ := Option.bind_eq_some.mp h
      cases h
      exact ⟨⟨_, State.pkuRestore_effect hr⟩, .inl rfl⟩
  | api c =>
    obtain ⟨⟨r, s₁⟩, hr, h⟩ := Option.bind_eq_some.mp h
    cases h
    exact ⟨⟨_, step_effect hr⟩, .inl rfl⟩

theorem Reachable.tablesInv (h : Reachable p) : KeysInv p.state.tables ∧ CallsInv p.state.tables := by
  induction h with
  | init pkru => exact ⟨initial_keysInv pkru, initial_callsInv pkru⟩
  | exec hook st _ hs ih =>
    obtain ⟨⟨c, he⟩, -⟩ := exec_cases hs
    exact ⟨he.keysInv ih.1, he.callsInv ih.2⟩

theorem IdsInv.exec (hi : IdsInv p) (h : exec hook p st = some p') : IdsInv p' := by
  obtain ⟨⟨c, he⟩, hids⟩ := exec_cases h
  have hkeep : ∀ f, f ≠ 0 → ∀ i, p.ids f = some i → 0 ≤ i →
      ∃ j : Fin numRegisteredPKUCalls, i = j ∧ (p'.state.registeredPKUCalls j).entry = f := by
    intro f hf i hfi hi0
    obtain ⟨j, rfl, hj⟩ := hi f hf i hfi hi0
    have hs : p'.state.tables.registeredPKUCalls j = p.state.tables.registeredPKUCalls j :=
      he.registered_stable (by simpa [hj] using hf)
    simp only [State.tables_registeredPKUCalls] at hs
    exact ⟨j, rfl, by rw [hs]; exact hj⟩
  rcases hids with hids | ⟨did, g, -, hs, hids⟩
  · intro f hf i hfi hi0
    exact hkeep f hf i (by rwa [hids] at hfi) hi0
  · intro f hf i hfi hi0
    by_cases hfg : f = g
    · subst hfg
      obtain rfl : (p.state.registerPKUCall did f).1 = i := by simpa [hids] using hfi
      obtain ⟨j, hj, -, hcalls⟩ := registerPKUCall_ok hi0
      exact ⟨j, hj, by simp [hs, hcalls]⟩
    · exact hkeep f hf i (by simpa [hids, Function.update_noteq hfg] using hfi) hi0

theorem Reachable.idsInv (h : Reachable p) : IdsInv p := by
  induction h with
  | init pkru => intro f _ i hi; cases hi
  | exec hook st _ hs ih => exact ih.exec hs

def twoRegistered : Prog :=
  ⟨(createdThree.registerPKUCall 3 2).2, Function.update (fun _ => none) 2 (some 0), []⟩

theorem twoRegistered_reachable : Reachable twoRegistered :=
  .exec idleHook (.register 3 2)
    (.exec (fun _ => ⟨0, initBuf [0x01, 0x21, 3]⟩) (.api (.pkuCreateDomain 0)) (.init 0) rfl) rfl

theorem pkucall_switches (h : Reachable p) (hook : Hook) {f : Nat} (hf : f ≠ 0) :
    (∀ i, p.ids f = some i → 0 ≤ i →
      ∃ j : Fin numRegisteredPKUCalls, i = j ∧ (p.state.registeredPKUCalls j).entry = f) ∧
    (∀ i, p.ids f = some i → i < 0 → exec hook p (.enter f) = none) ∧
    ∀ j : Fin numRegisteredPKUCalls, p.pkucallId f = j →
      ∃ p', exec hook p (.enter f) = some p' ∧
        p'.state.getCurrentDid = (p.state.registeredPKUCalls j).did ∧
        p'.state.trace.getLast? = some (.invoke f) ∧ p'.saved = p.state.getCurrentDid :: p.saved ∧
        p'.ids = p.ids := by
  refine ⟨h.idsInv f hf, fun i hfi hi => ?_, fun j hj => ?_⟩
  · have hid : p.pkucallId f = i := by simp [pkucallId, hfi]
    have hn : p.state.pkuSwitch i = none := pkuSwitch_out_of_bounds (by omega)
    simp [exec, hid, hn]
  · obtain ⟨d, hd, -⟩ := h.tablesInv.2 j
    simp only [State.tables_registeredPKUCalls] at hd
    let s₁ := (p.state.setPkey (p.state.keys d).pkey (p.state.keys d).perm).setCurrentDid d
    refine ⟨{ p with
      state := { s₁ with trace := s₁.trace ++ [.invoke f] }
      saved := p.state.getCurrentDid :: p.saved }, ?_, ?_, by simp, rfl, rfl⟩
    · simp [exec, hj, pkuSwitch_slot j d hd, s₁]
    · simp [State.getCurrentDid, hd, s₁]

theorem pkucall_switches_twoRegistered :
    Reachable twoRegistered ∧ (2 : Nat) ≠ 0 ∧
    (∀ i, twoRegistered.ids 2 = some i → 0 ≤ i →
      ∃ j : Fin numRegisteredPKUCalls, i = j ∧ (twoRegistered.state.registeredPKUCalls j).entry = 2) ∧
    (∀ i, twoRegistered.ids 2 = some i → i < 0 → exec idleHook twoRegistered (.enter 2) = none) ∧
    ∀ j : Fin numRegisteredPKUCalls, twoRegistered.pkucallId 2 = j →
      ∃ p', exec idleHook twoRegistered (.enter 2) = some p' ∧
        p'.state.getCurrentDid = (twoRegistered.state.registeredPKUCalls j).did ∧
        p'.state.trace.getLast? = some (.invoke 2) ∧
        p'.saved = twoRegistered.state.getCurrentDid :: twoRegistered.saved ∧ p'.ids = twoRegistered.ids :=
  ⟨twoRegistered_reachable, by decide, pkucall_switches twoRegistered_reachable idleHook (by decide)⟩

theorem pkucall_unregistered :
    Reachable twoRegistered ∧ twoRegistered.ids 1 = none ∧
      (twoRegistered.state.registeredPKUCalls 0).entry = 2 ∧
      (exec idleHook twoRegistered (.enter 1)).map
        (fun p => (p.state.getCurrentDid, p.state.trace.getLast?)) = some (3, some (.invoke 1)) :=
  ⟨twoRegistered_reachable, rfl, rfl, rfl⟩

end Prog

end PkuwaProofs.Guest
