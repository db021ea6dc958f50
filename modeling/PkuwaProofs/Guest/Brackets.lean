import PkuwaProofs.Guest.Macros
import PkuwaProofs.Guest.Rights

namespace PkuwaProofs.Guest

def Stmt.direct : Stmt → Bool
  | .api (.pkuSwitch _) | .api (.pkuRestore _) => true
  | _ => false

theorem Effect.currentDid_eq {c : Call} {t t' : Tables} (he : Effect c t t')
    (hs : ∀ i, c ≠ .pkuSwitch i) (hr : ∀ did, c ≠ .pkuRestore did) : t'.currentDid = t.currentDid := by
  cases he with
  | switch _ i _ _ => exact absurd rfl (hs i)
  | restore _ _ did _ => exact absurd rfl (hr did)
  | _ => rfl

namespace Prog

inductive Steps : Prog → List Stmt → Prog → Prop
  | nil (p : Prog) : Steps p [] p
  | cons {p p₁ p' : Prog} (hook : Hook) (st : Stmt) {sts : List Stmt} :
      exec hook p st = some p₁ → Steps p₁ sts p' → Steps p (st :: sts) p'

inductive Balanced : List Stmt → Prop
  | nil : Balanced []
  | register (did : Int) (f : Nat) {sts : List Stmt} : Balanced sts → Balanced (.register did f :: sts)
  | api (c : Call) {sts : List Stmt} : Balanced sts → Balanced (.api c :: sts)
  | bracket (f : Nat) {body rest : List Stmt} : Balanced body → Balanced rest →
      Balanced (.enter f :: (body ++ .leave :: rest))

variable {p p' : Prog} {hook : Hook}

theorem Steps.append_inv {xs ys : List Stmt} (h : Steps p (xs ++ ys) p') :
    ∃ pm, Steps p xs pm ∧ Steps pm ys p' := by
  induction xs generalizing p with
  | nil => exact ⟨p, .nil p, h⟩
  | cons st xs ih =>
    cases h with
    | cons hook _ hst hrest =>
      obtain ⟨pm, h1, h2⟩ := ih hrest
      exact ⟨pm, .cons hook st hst h1, h2⟩

theorem exec_register_saved {did : Int} {f : Nat} (h : exec hook p (.register did f) = some p') :
    p'.saved = p.saved := by
  cases h; rfl

theorem exec_api_saved {c : Call} (h : exec hook p (.api c) = some p') : p'.saved = p.saved := by
  obtain ⟨r, -, h⟩ := Option.bind_eq_some.mp h
  cases h; rfl

theorem exec_enter_saved {f : Nat} (h : exec hook p (.enter f) = some p') :
    p'.saved = p.state.getCurrentDid :: p.saved := by
  obtain ⟨r, -, h⟩ := Option.bind_eq_some.mp h
  cases h; rfl

theorem exec_leave {did : Int} {saved : List Int} (hs : p.saved = did :: saved)
    (h : exec hook p .leave = some p') : p'.saved = saved ∧ p'.state.getCurrentDid = did := by
  simp only [exec, hs] at h
  obtain ⟨r, hr, h⟩ := Option.bind_eq_some.mp h
  rw [State.pkuRestore_eq] at hr
  obtain ⟨key, -, hr⟩ := Option.bind_eq_some.mp hr
  cases hr; cases h
  exact ⟨rfl, rfl⟩

theorem Balanced.saved {sts : List Stmt} (hb : Balanced sts) (h : Steps p sts p') :
    p'.saved = p.saved := by
  induction hb generalizing p p' with
  | nil => cases h; rfl
  | register did f _ ih =>
    cases h with
    | cons _ _ hst hrest => rw [ih hrest, exec_register_saved hst]
  | api c _ ih =>
    cases h with
    | cons _ _ hst hrest => rw [ih hrest, exec_api_saved hst]
  | bracket f _ _ ihb ihr =>
    cases h with
    | cons _ _ hst hrest =>
      obtain ⟨pm, hbody, hleave⟩ := Steps.append_inv hrest
      cases hleave with
      | cons _ _ hl hrest' =>
        have hpm : pm.saved = p.state.getCurrentDid :: p.saved := (ihb hbody).trans (exec_enter_saved hst)
        rw [ihr hrest', (exec_leave hpm hl).1]

theorem pkucall_returns {f : Nat} {body : List Stmt} (hb : Balanced body)
    (h : Steps p (.enter f :: (body ++ [.leave])) p') :
    p'.saved = p.saved ∧ p'.state.getCurrentDid = p.state.getCurrentDid := by
  cases h with
  | cons _ _ hst hrest =>
    obtain ⟨pm, hbody, hleave⟩ := Steps.append_inv hrest
    cases hleave with
    | cons _ _ hl hnil =>
      cases hnil
      exact exec_leave ((hb.saved hbody).trans (exec_enter_saved hst)) hl

theorem exec_current {st : Stmt} (h : exec hook p st = some p') (hd : st.direct = false)
    (hst : ∀ f, st ≠ .enter f) (hl : st ≠ .leave) : p'.state.getCurrentDid = p.state.getCurrentDid := by
  cases st with
  | register did f => cases h; rfl
  | api c =>
    obtain ⟨r, hr, h⟩ := Option.bind_eq_some.mp h
    cases h
    exact (step_effect hr).currentDid_eq (fun i hc => by simp [hc, Stmt.direct] at hd)
      (fun did hc => by simp [hc, Stmt.direct] at hd)
  | enter f => exact absurd rfl (hst f)
  | leave => exact absurd rfl hl

theorem Balanced.current {sts : List Stmt} (hb : Balanced sts) (hd : ∀ st ∈ sts, st.direct = false)
    (h : Steps p sts p') : p'.state.getCurrentDid = p.state.getCurrentDid := by
  induction hb generalizing p p' with
  | nil => cases h; rfl
  | register did f _ ih =>
    cases h with
    | cons _ _ hst hrest =>
      rw [ih (fun st hs => hd st (.tail _ hs)) hrest, exec_current hst (hd _ (.head _)) (fun _ h => nomatch h) (fun h => nomatch h)]
  | api c _ ih =>
    cases h with
    | cons _ _ hst hrest =>
      rw [ih (fun st hs => hd st (.tail _ hs)) hrest,
        exec_current hst (hd _ (.head _)) (fun _ h => nomatch h) (fun h => nomatch h)]
  | bracket f hbody _ _ ihr =>
    cases h with
    | cons _ _ hst hrest =>
      obtain ⟨pm, hpm, hleave⟩ := Steps.append_inv hrest
      cases hleave with
      | cons _ _ hl hrest' =>
        have hs := exec_leave ((hbody.saved hpm).trans (exec_enter_saved hst)) hl
        rw [ihr (fun st hs => hd st (by simp [hs])) hrest', hs.2]

theorem Steps.reachable {sts : List Stmt} (h : Steps p sts p') (hp : Reachable p) : Reachable p' := by
  induction h with
  | nil => exact hp
  | cons hook st hst _ ih => exact ih (.exec hook st hp hst)

theorem Steps.keys_used {sts : List Stmt} (h : Steps p sts p') {d : Fin numDomains}
    (hd : (p.state.keys d).used = true) : (p'.state.keys d).used = true := by
  induction h with
  | nil => exact hd
  | cons hook st hst _ ih =>
    obtain ⟨⟨c, he⟩, -⟩ := exec_cases hst
    exact ih (by simpa using he.keys_used (by simpa using hd))

theorem exec_enter_slot {f : Nat} {j : Fin numRegisteredPKUCalls} {d : Fin numDomains}
    (hj : p.pkucallId f = j) (hd : (p.state.registeredPKUCalls j).did = d)
    (h : exec hook p (.enter f) = some p') : p'.state.getCurrentDid = d := by
  simp only [exec, hj, pkuSwitch_slot j d hd, Option.some_bind, Option.some.injEq] at h
  cases h
  rfl

theorem exec_leave_locks {d : Fin numDomains} (hd : p.state.getCurrentDid = d)
    (h : exec hook p .leave = some p') :
    p'.state.pkru = setPkeyValue p.state.pkru (p.state.keys d).pkey (pkeyDisableAccess ||| pkeyDisableWrite) := by
  cases hs : p.saved with
  | nil => simp [exec, hs] at h
  | cons did saved =>
    simp only [exec, hs, State.pkuRestore_eq, Core.key?, hd, slot?_eq_some.mpr rfl, Option.map_some',
      Option.some_bind, Option.some.injEq] at h
    cases h
    rfl

theorem pkucall_locks_callee (hp : Reachable p) {f : Nat} {j : Fin numRegisteredPKUCalls}
    (hj : p.pkucallId f = j) {body : List Stmt} (hb : Balanced body)
    (hd : ∀ st ∈ body, st.direct = false) (h : Steps p (.enter f :: (body ++ [.leave])) p') :
    p'.state.getCurrentDid = p.state.getCurrentDid ∧
    ∃ d : Fin numDomains, (p.state.registeredPKUCalls j).did = d ∧
      canAccess p'.state.pkru d = false ∧ canWrite p'.state.pkru d = false := by
  obtain ⟨d, hdid, hu⟩ := hp.tablesInv.2 j
  simp only [State.tables_registeredPKUCalls, State.tables_keys] at hdid hu
  cases h with
  | cons _ _ hst hrest =>
    obtain ⟨pm, hbody, hleave⟩ := Steps.append_inv hrest
    cases hleave with
    | cons _ _ hl hnil =>
      cases hnil
      have hcur : pm.state.getCurrentDid = d := (hb.current hd hbody).trans (exec_enter_slot hj hdid hst)
      have hrun : Steps p (.enter f :: body) pm := .cons _ _ hst hbody
      have hkey : (pm.state.keys d).pkey.toNat = d :=
        (hrun.reachable hp).tablesInv.1.used_pkey d (by simpa using hrun.keys_used hu)
      have hlock := setPkeyValue_disables pm.state.pkru (pm.state.keys d).pkey (hkey ▸ d.isLt)
      rw [hkey, ← exec_leave_locks hcur hl] at hlock
      refine ⟨exec_leave ((hb.saved hbody).trans (exec_enter_saved hst)) hl |>.2, d, hdid, ?_, ?_⟩
      · simp [canAccess, hlock.1]
      · simp [canWrite, hlock.1]

def run (hook : Hook) (p : Prog) : List Stmt → Option Prog
  | [] => some p
  | st :: sts => (exec hook p st).bind fun p₁ => run hook p₁ sts

theorem run_steps (hook : Hook) :
    ∀ {p p' : Prog} {sts : List Stmt}, run hook p sts = some p' → Steps p sts p'
  | _, _, [], h => Option.some.inj h ▸ .nil _
  | _, _, st :: sts, h => by
    obtain ⟨p₁, h1, h2⟩ := Option.bind_eq_some.mp h
    exact .cons hook st h1 (run_steps hook h2)

def nestedCall : List Stmt := [.enter 2, .leave]

def registerThenCall : List Stmt := [.api (.registerPKUCall 3 5), .enter 2, .leave]

def twoCalled (body : List Stmt) : Prog :=
  (run idleHook twoRegistered (.enter 2 :: (body ++ [.leave]))).getD twoRegistered

theorem pkucall_returns_nested :
    Balanced nestedCall ∧
    Steps twoRegistered (.enter 2 :: (nestedCall ++ [.leave])) (twoCalled nestedCall) ∧
    (twoCalled nestedCall).saved = twoRegistered.saved ∧
    (twoCalled nestedCall).state.getCurrentDid = twoRegistered.state.getCurrentDid :=
  have hb : Balanced nestedCall := .bracket 2 .nil .nil
  have h : Steps twoRegistered (.enter 2 :: (nestedCall ++ [.leave])) (twoCalled nestedCall) :=
    run_steps idleHook rfl
  ⟨hb, h, pkucall_returns hb h⟩

theorem pkucall_locks_callee_registerThenCall :
    Reachable twoRegistered ∧ twoRegistered.pkucallId 2 = ((0 : Fin numRegisteredPKUCalls) : Int) ∧
    Balanced registerThenCall ∧ (∀ st ∈ registerThenCall, st.direct = false) ∧
    Steps twoRegistered (.enter 2 :: (registerThenCall ++ [.leave])) (twoCalled registerThenCall) ∧
    (twoCalled registerThenCall).state.getCurrentDid = twoRegistered.state.getCurrentDid ∧
    ∃ d : Fin numDomains, (twoRegistered.state.registeredPKUCalls 0).did = d ∧
      canAccess (twoCalled registerThenCall).state.pkru d = false ∧
      canWrite (twoCalled registerThenCall).state.pkru d = false :=
  have hj : twoRegistered.pkucallId 2 = ((0 : Fin numRegisteredPKUCalls) : Int) := rfl
  have hb : Balanced registerThenCall := .api _ (.bracket 2 .nil .nil)
  have hd : ∀ st ∈ registerThenCall, st.direct = false := by simp [registerThenCall, Stmt.direct]
  have h : Steps twoRegistered (.enter 2 :: (registerThenCall ++ [.leave]))
      (twoCalled registerThenCall) := run_steps idleHook rfl
  ⟨twoRegistered_reachable, hj, hb, hd, h,
    pkucall_locks_callee twoRegistered_reachable hj hb hd h⟩

end Prog

end PkuwaProofs.Guest
