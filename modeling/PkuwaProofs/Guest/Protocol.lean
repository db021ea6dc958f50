import PkuwaProofs.Codec
import PkuwaProofs.Guest.Memory
import PkuwaProofs.Guest.Lifecycle
import Mathlib.Tactic.IntervalCases

namespace PkuwaProofs.Guest

inductive Request where
  | createDomain
  | protectRange (addr length : BitVec 32) (prot pkey : UInt8)
  | mmap (addr length : BitVec 32) (prot flags : UInt8)
  | readPKRU
deriving DecidableEq

def be32 (x : BitVec 32) : List UInt8 :=
  [UInt8.ofNat (x.toNat / 2 ^ 24), UInt8.ofNat (x.toNat / 2 ^ 16), UInt8.ofNat (x.toNat / 2 ^ 8),
    UInt8.ofNat x.toNat]

def Request.encode : Request → Buf
  | .createDomain => initBuf [0x01, 0x21]
  | .protectRange addr length prot pkey =>
    initBuf ([0x01, 0x20] ++ be32 addr ++ be32 length ++ [prot, pkey])
  | .mmap addr length prot flags => initBuf ([0x01, 0x2B] ++ be32 addr ++ be32 length ++ [prot, flags])
  | .readPKRU => initBuf [0x0F, 0x01, 0xEE]

def fieldBE (b : Buf) (off : Nat) : BitVec 32 :=
  BitVec.ofNat 32 ((getByte b off).toNat * 2 ^ 24 + (getByte b (off + 1)).toNat * 2 ^ 16 +
    (getByte b (off + 2)).toNat * 2 ^ 8 + (getByte b (off + 3)).toNat)

def Request.decode (b : Buf) : Option Request :=
  let op := (getByte b 0, getByte b 1)
  if op = (0x01, 0x21) then some .createDomain
  else if op = (0x01, 0x20) then
    some (.protectRange (fieldBE b 2) (fieldBE b 6) (getByte b 10) (getByte b 11))
  else if op = (0x01, 0x2B) then some (.mmap (fieldBE b 2) (fieldBE b 6) (getByte b 10) (getByte b 11))
  else if op = (0x0F, 0x01) ∧ getByte b 2 = 0xEE then some .readPKRU
  else none

theorem toNat_uint8_ofNat (n : Nat) : (UInt8.ofNat n).toNat = n % 256 := rfl

theorem be32_value (x : BitVec 32) :
    BitVec.ofNat 32 ((UInt8.ofNat (x.toNat / 2 ^ 24)).toNat * 2 ^ 24 +
      (UInt8.ofNat (x.toNat / 2 ^ 16)).toNat * 2 ^ 16 + (UInt8.ofNat (x.toNat / 2 ^ 8)).toNat * 2 ^ 8 +
      (UInt8.ofNat x.toNat).toNat) = x := by
  apply BitVec.eq_of_toNat_eq
  simp only [toNat_uint8_ofNat, BitVec.toNat_ofNat]
  have := x.isLt
  omega

theorem Request.decode_encode (r : Request) : Request.decode r.encode = some r := by
  cases r with
  | createDomain => rfl
  | protectRange addr length prot pkey =>
    simp only [Request.decode, Request.encode, initBuf, fieldBE, getByte, be32, List.cons_append,
      List.nil_append, List.getD_cons_succ, List.getD_cons_zero, Nat.reduceLT, Nat.reduceAdd,
      dite_true, be32_value, if_true]
    rw [if_neg (by decide)]
  | mmap addr length prot flags =>
    simp only [Request.decode, Request.encode, initBuf, fieldBE, getByte, be32, List.cons_append,
      List.nil_append, List.getD_cons_succ, List.getD_cons_zero, Nat.reduceLT, Nat.reduceAdd,
      dite_true, be32_value, if_true]
    rw [if_neg (by decide), if_neg (by decide)]
  | readPKRU => rfl

theorem protectRequest_encode (addr length pkey : Nat) :
    protectRequest [0x01, 0x20] addr length pkey =
      (Request.protectRange (BitVec.ofNat 32 addr) (BitVec.ofNat 32 length) 3 (UInt8.ofNat pkey)).encode := by
  funext ⟨j, hj⟩
  apply UInt8.toNat.inj
  simp only [protectRequest, setByte_apply, storeBE_apply, Request.encode, initBuf, be32,
    List.cons_append, List.nil_append]
  interval_cases j <;> simp [toNat_uint8_ofNat] <;> omega

theorem mmapRequest_encode (addr length : Nat) (prot flags : Int) :
    State.mmapRequest addr length prot flags =
      (Request.mmap (BitVec.ofNat 32 addr) (BitVec.ofNat 32 length) (byteOfInt prot)
        (byteOfInt flags)).encode := by
  funext ⟨j, hj⟩
  apply UInt8.toNat.inj
  simp only [State.mmapRequest, setByte_apply, storeBE_apply, Request.encode, initBuf, be32,
    List.cons_append, List.nil_append]
  interval_cases j <;> simp [toNat_uint8_ofNat] <;> omega

end PkuwaProofs.Guest

namespace PkuwaProofs

theorem Core.createDomainWith_trace (s : Core) (head : List UInt8) (hook : Hook) :
    (s.createDomainWith head hook).2.trace = s.trace ++ [.wasiCall (initBuf head)] := by
  unfold Core.createDomainWith
  dsimp only
  split_ifs <;> rfl

theorem Core.registerPKUCall_trace (s : Core) (did : Int) (entry : Nat) :
    (s.registerPKUCall did entry).2.trace = s.trace := by
  generalize hr : s.registerPKUCall did entry = out
  obtain ⟨r, s'⟩ := out
  exact (Core.registerPKUCall_cases hr).2.2.1

theorem Core.domainAssignPkey_trace (s : Core) (did AccessRights : Int) :
    ∃ evs, (s.domainAssignPkey did AccessRights).2.trace = s.trace ++ evs ∧
      ∀ b, Event.wasiCall b ∉ evs := by
  generalize hd : s.domainAssignPkey did AccessRights = out
  obtain ⟨r, s'⟩ := out
  obtain ⟨-, -, ⟨rfl, -⟩ | ⟨-, -, -, rfl⟩⟩ := Core.domainAssignPkey_cases hd
  · exact ⟨[], (List.append_nil _).symm, by simp⟩
  · exact ⟨_, rfl, by simp⟩

end PkuwaProofs

namespace PkuwaProofs.Guest

variable {s s' : State} {hook : Hook}

def LogStep (s s' : State) : Prop :=
  ∃ evs, s'.trace = s.trace ++ evs ∧ ∀ b, Event.wasiCall b ∈ evs → ∃ r : Request, b = r.encode

theorem LogStep.quiet {evs : List Event} (ht : s'.trace = s.trace ++ evs)
    (hw : ∀ b, Event.wasiCall b ∉ evs) : LogStep s s' :=
  ⟨evs, ht, fun b hb => absurd hb (hw b)⟩

theorem LogStep.same (ht : s'.trace = s.trace) : LogStep s s' :=
  .quiet (show s'.trace = s.trace ++ [] by rw [ht, List.append_nil]) (by simp)

theorem LogStep.request (r : Request) (ht : s'.trace = s.trace ++ [.wasiCall r.encode]) :
    LogStep s s' :=
  ⟨_, ht, fun b hb => ⟨r, by simpa using hb⟩⟩

theorem LogStep.pkuDomainFree {domain : Int} {r : Int} (h : s.pkuDomainFree domain = some (r, s')) :
    LogStep s s' := by
  by_cases hr : r = 0
  · subst hr
    exact .quiet (pkuDomainFree_ok h).2.2.2.2 (by simp)
  · exact .same (pkuDomainFree_fail h hr).2

theorem LogStep.pkuMprotect (addr len : Nat) (prot pkey : Int) :
    LogStep s (s.pkuPkeyMprotect hook addr len prot pkey).2 := by
  obtain ⟨-, reqs, ht, hreqs⟩ := @pkuPkeyMprotect_requests s hook addr len prot pkey
  refine ⟨_, ht, fun b hb => ?_⟩
  obtain ⟨b', hb', hbb⟩ := List.mem_map.mp hb
  cases hbb
  rcases hreqs b hb' with rfl | ⟨a, rfl⟩
  · exact ⟨_, mmapRequest_encode _ _ _ _⟩
  · exact ⟨_, protectRequest_encode _ _ _⟩

theorem LogStep.domainProtect (addr length pkey : Nat) :
    LogStep s (s.domainProtect hook addr length pkey).2 :=
  .request _ (by rw [← protectRequest_encode]; rfl)

theorem step_log {c : Call} {r : Int} (h : step hook s c = some (r, s')) : LogStep s s' := by
  cases c with
  | pkuInit flags pagesize =>
    rw [eq_snd_of_some h]
    unfold State.pkuInit State.doInit
    split_ifs <;> exact .same rfl
  | pkuDomainFree domain => exact .pkuDomainFree h
  | pkuCreateDomain flags =>
    rw [eq_snd_of_some h]
    exact .request .createDomain (Core.createDomainWith_trace _ _ _)
  | pkuPkeyAlloc flags AccessRights =>
    rw [eq_snd_of_some h]
    unfold State.pkuPkeyAlloc
    split_ifs
    · exact .same rfl
    · exact .request .createDomain (Core.createDomainWith_trace _ _ _)
  | pkuPkeyFree pkey =>
    simp only [step, State.pkuPkeyFree, gLazyFree, Bool.false_eq_true, if_false] at h
    split_ifs at h
    · cases h; exact .same rfl
    · -- the free runs on the state with every domain marked unused, whose trace is the same
      have hl := LogStep.pkuDomainFree h
      exact hl
  | domainProtect addr length pkey => rw [eq_snd_of_some h]; exact .domainProtect addr length pkey
  | registerPKUCall did entry =>
    rw [eq_snd_of_some h]
    exact .same (Core.registerPKUCall_trace _ _ _)
  | readPKRU =>
    rw [eq_snd_of_some h]
    exact .request .readPKRU (by simp [State.readPKRU, Core.readPKRUWith_snd]; rfl)
  | pkuDomainAssignPkey did pkey flags AccessRights =>
    rw [eq_snd_of_some h]
    unfold State.pkuDomainAssignPkey
    split
    · exact .same rfl
    · obtain ⟨evs, ht, hw⟩ := Core.domainAssignPkey_trace s.toCore did AccessRights
      exact .quiet ht hw
  | naiveMmap bytes ptr => rw [eq_snd_of_some h]; exact .quiet rfl (by simp)
  | pkuMmap addr length prot flags fd offset =>
    rw [eq_snd_of_some h]
    exact .request _ (by rw [← mmapRequest_encode]; rfl)
  | pkuMprotect addr len prot =>
    rw [eq_snd_of_some h]
    exact .pkuMprotect addr len prot 0
  | pkuPkeyMprotect addr len prot pkey =>
    rw [eq_snd_of_some h]
    exact .pkuMprotect addr len prot pkey
  | pkuSwitch PKUCallID =>
    obtain ⟨_, _, -, rfl⟩ := State.pkuSwitch_some h
    exact .quiet rfl (by simp)
  | pkuRestore did =>
    obtain ⟨_, -, rfl⟩ := State.pkuRestore_some h
    exact .quiet rfl (by simp)
  | mallocHook bytes ptr =>
    rw [eq_snd_of_some h]
    unfold State.mallocHook
    split_ifs <;> exact .quiet rfl (by simp)
  | freeHook ptr =>
    rw [eq_snd_of_some h]
    unfold State.freeHook
    split_ifs
    · exact .domainProtect ptr pageSizePKU 0
    · exact .same rfl
  | _ => rw [eq_snd_of_some h]; exact .same rfl

theorem Reachable.requests (h : Reachable s) :
    ∀ b, Event.wasiCall b ∈ s.trace → ∃ r : Request, b = r.encode := by
  induction h with
  | initial pkru => exact fun _ hb => nomatch hb
  | step hook c _ hs ih =>
    obtain ⟨evs, ht, hreq⟩ := step_log hs
    rw [ht]
    intro b hb
    rcases List.mem_append.mp hb with hb | hb
    · exact ih b hb
    · exact hreq b hb

theorem requests_decode (h : Reachable s) :
    ∀ b, Event.wasiCall b ∈ s.trace → ∃ r : Request, Request.decode b = some r ∧ r.encode = b := by
  intro b hb
  obtain ⟨r, rfl⟩ := h.requests b hb
  exact ⟨r, r.decode_encode, rfl⟩

theorem requests_decode_createdThree :
    Reachable createdThree ∧ ∀ b, Event.wasiCall b ∈ createdThree.trace →
      ∃ r : Request, Request.decode b = some r ∧ r.encode = b :=
  ⟨createdThree_reachable, requests_decode createdThree_reachable⟩

end PkuwaProofs.Guest
