import PkuwaProofs.Guest.Rights
import PkuwaProofs.Native
import PkuwaProofs.Codec

namespace PkuwaProofs

namespace Core

variable (s : Core) (head : List UInt8) (hook : Hook)

def failed : Core :=
  { s with trace := s.trace ++ [.wasiCall (initBuf head)], errno := (hook (initBuf head)).error }

theorem createDomainWith_error (h : (hook (initBuf head)).error ≠ 0) :
    s.createDomainWith head hook = (-1, s.failed head hook) := by
  simp [createDomainWith, wasiCall, failed, h]

theorem readPKRUWith_error (h : (hook (initBuf head)).error ≠ 0) :
    s.readPKRUWith head hook = (-1, s.failed head hook) := by
  simp [readPKRUWith, wasiCall, failed, h]

end Core

theorem readPKRUAcc_allOnes {buf : Buf}
    (h : getByte buf 3 = 0xFF ∧ getByte buf 4 = 0xFF ∧ getByte buf 5 = 0xFF ∧ getByte buf 6 = 0xFF) :
    readPKRUAcc buf = -1 := by
  obtain ⟨h3, h4, h5, h6⟩ := h
  simp only [readPKRUAcc, loadBE, h3, h4, h5, h6]
  decide

def failingHook : Hook := fun buf => ⟨1, buf⟩

def replyHook (buf : Buf) : Hook := fun _ => ⟨0, buf⟩

theorem hostError_reported (hook : Hook) (s : Guest.State) (sn : Core) (flags : BitVec 32) :
    ((hook (initBuf [0x01, 0x21])).error ≠ 0 →
      s.pkuCreateDomain hook flags = (-1, { s with toCore := s.toCore.failed [0x01, 0x21] hook })) ∧
    ((hook (initBuf [0x01, 0x4A])).error ≠ 0 →
      Native.pkuCreateDomain sn hook flags = (-1, sn.failed [0x01, 0x4A] hook)) ∧
    ((hook (initBuf [0x0F, 0x01, 0xEE])).error ≠ 0 →
      s.readPKRU hook = (-1, { s with toCore := s.toCore.failed [0x0F, 0x01, 0xEE] hook })) ∧
    ((hook (initBuf [0x0F, 0xEE])).error ≠ 0 →
      Native.readPkru sn hook = (-1, sn.failed [0x0F, 0xEE] hook)) ∧
    ∀ buf : Buf,
      getByte buf 3 = 0xFF ∧ getByte buf 4 = 0xFF ∧ getByte buf 5 = 0xFF ∧ getByte buf 6 = 0xFF →
      (s.readPKRU (replyHook buf)).1 = -1 ∧ (Native.readPkru sn (replyHook buf)).1 = -1 := by
  refine ⟨fun h => ?_, Core.createDomainWith_error sn _ hook, fun h => ?_,
    Core.readPKRUWith_error sn _ hook, fun buf hb => ⟨?_, ?_⟩⟩
  · simp [Guest.State.pkuCreateDomain, Guest.State.withCore, Core.createDomainWith_error _ _ _ h]
  · simp [Guest.State.readPKRU, Guest.State.withCore, Core.readPKRUWith_error _ _ _ h]
  · rw [Guest.State.readPKRU, Guest.State.withCore_fst,
      Core.readPKRUWith_ok s.toCore _ _ rfl]
    exact readPKRUAcc_allOnes hb
  · rw [Native.readPkru, Core.readPKRUWith_ok sn _ _ rfl]
    exact readPKRUAcc_allOnes hb

def eioHook : Hook := fun buf => ⟨29, buf⟩

theorem hostError_reported_initial :
    (Guest.initial 0).pkuCreateDomain eioHook 0 =
        (-1, { Guest.initial 0 with
          toCore := { (Guest.initial 0).toCore with
            trace := [.wasiCall (initBuf [0x01, 0x21])], errno := 29 } }) ∧
      Native.pkuCreateDomain (Native.initial 0) eioHook 0 =
        (-1, { Native.initial 0 with trace := [.wasiCall (initBuf [0x01, 0x4A])], errno := 29 }) ∧
      (Guest.initial 0).readPKRU eioHook =
        (-1, { Guest.initial 0 with
          toCore := { (Guest.initial 0).toCore with
            trace := [.wasiCall (initBuf [0x0F, 0x01, 0xEE])], errno := 29 } }) ∧
      Native.readPkru (Native.initial 0) eioHook =
        (-1, { Native.initial 0 with trace := [.wasiCall (initBuf [0x0F, 0xEE])], errno := 29 }) ∧
      ((Guest.initial 0).readPKRU (replyHook (initBuf [0, 0, 0, 0xFF, 0xFF, 0xFF, 0xFF]))).1 = -1 ∧
      (Native.readPkru (Native.initial 0) (replyHook (initBuf [0, 0, 0, 0xFF, 0xFF, 0xFF, 0xFF]))).1
        = -1 :=
  let h := hostError_reported eioHook (Guest.initial 0) (Native.initial 0) 0
  ⟨h.1 (by decide), h.2.1 (by decide), h.2.2.1 (by decide), h.2.2.2.1 (by decide),
    h.2.2.2.2 _ (by decide)⟩

theorem readPKRU_error_collides :
    ((Guest.initial 0).readPKRU failingHook).1 = -1 ∧
      (failingHook (initBuf [0x0F, 0x01, 0xEE])).error ≠ 0 ∧
      ((Guest.initial 0).readPKRU (replyHook (initBuf [0, 0, 0, 0xFF, 0xFF, 0xFF, 0xFF]))).1 = -1 ∧
      (replyHook (initBuf [0, 0, 0, 0xFF, 0xFF, 0xFF, 0xFF]) (initBuf [0x0F, 0x01, 0xEE])).error
        = 0 :=
  ⟨rfl, by decide, rfl, rfl⟩

theorem hostError_unreported (hook : Hook) (s : Guest.State) (sn : Core) (addr length pkey : Nat)
    (prot flags fd offset : Int) (hl : length < 2 ^ 32)
    (hb : (hook (Guest.State.mmapRequest addr length prot flags)).buf =
      Guest.State.mmapRequest addr length prot flags) :
    (s.domainProtect hook addr length pkey).1 = 0 ∧ (Native.domainProtect sn hook addr length pkey).1 = 0 ∧
    (s.pkuMmap hook addr length prot flags fd offset).1 = addr % 2 ^ 32 ∧
    (s.pkuMmap hook addr length prot flags fd offset).2.gsMmapMemory =
      s.gsMmapMemory + BitVec.ofNat 32 length := by
  have hm := rangeFields_decode (initBuf [0x01, 0x2B]) addr length (byteOfInt prot) (byteOfInt flags)
  have hlen : loadBE (Guest.State.mmapRequest addr length prot flags) 0 6 4 = length :=
    hm.2.trans (Nat.mod_eq_of_lt hl)
  refine ⟨rfl, rfl, ?_, ?_⟩ <;>
    simp only [Guest.State.pkuMmap, Core.wasiCall_fst, hb, hlen, ne_eq, not_true_eq_false, if_false]
  exact hm.1

theorem hostError_unreported_failing :
    0x2000 < 2 ^ 32 ∧ (failingHook (Guest.State.mmapRequest 0x1000 0x2000 3 0x22)).error ≠ 0 ∧
    (failingHook (Guest.State.mmapRequest 0x1000 0x2000 3 0x22)).buf =
      Guest.State.mmapRequest 0x1000 0x2000 3 0x22 ∧
    ((Guest.initial 0).domainProtect failingHook 0x1000 0x2000 1).1 = 0 ∧
    (Native.domainProtect (Native.initial 0) failingHook 0x1000 0x2000 1).1 = 0 ∧
    ((Guest.initial 0).pkuMmap failingHook 0x1000 0x2000 3 0x22 (-1) 0).1 = 0x1000 % 2 ^ 32 ∧
    ((Guest.initial 0).pkuMmap failingHook 0x1000 0x2000 3 0x22 (-1) 0).2.gsMmapMemory =
      (Guest.initial 0).gsMmapMemory + BitVec.ofNat 32 0x2000 :=
  ⟨by decide, by decide, rfl,
    hostError_unreported failingHook (Guest.initial 0) (Native.initial 0) 0x1000 0x2000 1 3 0x22 (-1) 0
      (by decide) rfl⟩

namespace Guest

variable {s : State}

theorem pkuCreateDomain_reply (h : Reachable s) (hook : Hook) (flags : BitVec 32) :
    ((hook (initBuf [0x01, 0x21])).error ≠ 0 →
      (s.pkuCreateDomain hook flags).1 = -1 ∧ (s.pkuCreateDomain hook flags).2.keys = s.keys) ∧
    ((hook (initBuf [0x01, 0x21])).error = 0 → 16 ≤ ((hook (initBuf [0x01, 0x21])).buf 2).toNat →
      (s.pkuCreateDomain hook flags).1 = 0 ∧ (s.pkuCreateDomain hook flags).2.keys = s.keys ∧
        s.domainExists 0 = true) ∧
    ((hook (initBuf [0x01, 0x21])).error = 0 → ∀ d : Fin numDomains,
      ((hook (initBuf [0x01, 0x21])).buf 2).toNat = d → (s.keys d).used = false →
      (s.pkuCreateDomain hook flags).1 = d ∧
        (s.pkuCreateDomain hook flags).2.keys = Function.update s.keys d ⟨d.val.toUInt16, 0, true⟩) := by
  refine ⟨fun he => ?_, fun he hge => ?_, fun he d hd hu => ?_⟩
  · simp [State.pkuCreateDomain, State.withCore, Core.createDomainWith_error _ _ _ he, Core.failed]
  · have hroot : s.domainExists 0 = true :=
      Core.domainExists_iff.mpr ⟨0, rfl, by simpa using congrArg PKUKey.used h.keysInv.root⟩
    simp [State.pkuCreateDomain, State.withCore, Core.createDomainWith, Core.wasiCall, he, hge, hroot]
  · have hlt : ¬16 ≤ ((hook (initBuf [0x01, 0x21])).buf 2).toNat := by
      have : d.val < 16 := d.isLt
      omega
    have hb : (⟨_, Nat.lt_of_not_le hlt⟩ : Fin numDomains) = d := Fin.ext hd
    simp only [State.pkuCreateDomain, State.withCore, Core.createDomainWith, Core.wasiCall, he, hlt,
      ne_eq, not_true_eq_false, if_false, dite_false, hb, h.perm_zero d]
    exact ⟨by rw [hd], by rw [hd]⟩

theorem pkuCreateDomain_declined :
    Reachable (initial 0) ∧
      ((initial 0).pkuCreateDomain (replyHook (initBuf [0x01, 0x21, 16])) 0).1 = 0 ∧
      (initial 0).domainExists 0 = true :=
  ⟨.initial 0, rfl, rfl⟩

end Guest

end PkuwaProofs
