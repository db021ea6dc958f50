import PkuwaProofs.Guest.State

namespace PkuwaProofs.Guest

def gLazyFree : Bool := false

def gMallocNumber : Nat := 0

namespace State

variable (s : State) (hook : Hook)

def doInit (_flags pagesize : Int) : Int × State :=
  if s.gData.initialized then (-1, { s with errno := eacces })
  else if -1 = pagesize then (-1, { s with errno := eacces })
  else if (pageSizePKU : Int) ≠ pagesize then (-1, { s with errno := eacces })
  else (0, { s with gData := { s.gData with initialized := true } })

/-- `pagesize` is what `sysconf(_SC_PAGESIZE)` answers. On the error path `DoInitFinished` is
still `0`, so `PKUDeinit` is never reached. -/
def pkuInit (flags pagesize : Int) : Int × State :=
  if s.gInitialized then (0, s)
  else
    let r := s.doInit flags pagesize
    if -1 = r.1 then r else (r.1, { r.2 with gInitialized := true })

def pkuDeinit : Int := 0

def callUserHandlers : Option State :=
  let addrs := (List.finRange numMprotectRanges).filterMap fun rid =>
    if (s.gData.ranges rid).used then some (s.gData.ranges rid).addr else none
  if addrs ≠ [] ∧ s.gData.userHandler = 0 then none
  else some { s with trace := s.trace ++ addrs.map (.userHandler s.gData.userHandler) }

def pkuDomainFree (domain : Int) : Option (Int × State) :=
  if !s.gData.initialized then some (-1, s)
  else if !s.domainExists domain then some (-1, { s with errno := einval })
  else if (List.finRange numDomains).any fun did => (s.gData.domains did).used then
    some (-1, { s with errno := einval })
  else s.callUserHandlers.map fun s =>
    let domains := storeAt s.gData.domains domain fun dom =>
      { dom with pkey := 0, perm := 0, used := false }
    (0, { s with gData := { s.gData with domains := domains } })

def pkuCreateDomain (_flags : BitVec 32) : Int × State :=
  s.withCore (s.toCore.createDomainWith [0x01, 0x21] hook)

def pkuPkeyAlloc (flags AccessRights : BitVec 32) : Int × State :=
  if AccessRights &&& ~~~(pkeyDisableAccess ||| pkeyDisableWrite) ≠ 0 then
    (-1, { s with errno := einval })
  else s.pkuCreateDomain hook flags

def pkuPkeyFree (pkey : Int) : Option (Int × State) :=
  if (List.finRange numDomains).any fun rid =>
      (s.gData.ranges (Fin.castLE (by decide) rid)).used then
    some (-1, { s with errno := eperm })
  else
    let domains := fun did =>
      let domain := s.gData.domains did
      if domain.used then { domain with used := false } else domain
    let s := { s with gData := { s.gData with domains := domains } }
    if gLazyFree then some (0, s) else s.pkuDomainFree pkey

def domainProtect (addr length pkey : Nat) : Int × State :=
  s.withCore (s.toCore.domainProtectWith [0x01, 0x20] hook addr length pkey)

def registerPKUCall (did : Int) (entry : Nat) : Int × State :=
  s.withCore (s.toCore.registerPKUCall did entry)

def readPKRU : Int × State := s.withCore (s.toCore.readPKRUWith [0x0F, 0x01, 0xEE] hook)

def writePKRU (pkru : Nat) : Int × State :=
  s.withCore (s.toCore.writePKRUWith [0x0F, 0x01, 0xEF] hook pkru)

def pkuDomainAssignPkey (did _pkey _flags AccessRights : Int) : Int × State :=
  if !s.domainExists s.getCurrentDid then (-einval, s)
  else s.withCore (s.toCore.domainAssignPkey did AccessRights)

def pageAlign (S : BitVec 32) : BitVec 32 :=
  (S + (BitVec.ofNat 32 pageSizePKU - 1)) &&& ~~~(BitVec.ofNat 32 pageSizePKU - 1)

/-- `ptr` is what the allocator `PKUMalloc`, outside the repository, returns. -/
def naiveMmap (bytes : BitVec 32) (ptr : Nat) : Nat × State :=
  let bytes := pageAlign bytes
  (ptr, { s with gsMmapMemory := s.gsMmapMemory + bytes, trace := s.trace ++ [.pkuMalloc bytes.toNat] })

def mmapRequest (addr length : Nat) (prot flags : Int) : Buf :=
  let buf := initBuf [0x01, 0x2B]
  let buf := storeBE buf 2 addr 4
  let buf := storeBE buf 6 length 4
  let buf := setByte buf 10 (byteOfInt prot)
  setByte buf 11 (byteOfInt flags)

def pkuMmap (addr length : Nat) (prot flags _fd _offset : Int) : Nat × State :=
  let call := s.toCore.wasiCall hook (mmapRequest addr length prot flags)
  let temp := loadBE call.1.buf 0 2 4
  let len := loadBE call.1.buf 0 6 4
  let temp := if len ≠ length then 0 else temp
  (temp, { s with toCore := call.2, gsMmapMemory := s.gsMmapMemory + BitVec.ofNat 32 len })

def pkuMunmap (_addr _len : Nat) : Int := 0

/-- `MallocHook`. `g_MallocNumber` is a `size_t`, so its test `< 0` never holds; `ptr` is what
`PKUMalloc`, outside the repository, returns. -/
def mallocHook (bytes : BitVec 32) (ptr : Nat) : Nat × State :=
  let size := bytes
  if gMallocNumber < 0 then (ptr, { s with trace := s.trace ++ [.pkuMalloc size.toNat] })
  else (ptr, { s with trace := s.trace ++ [.pkuMalloc size.toNat] })

def freeHook (ptr : Nat) : State :=
  if s.getCurrentDid ≠ 0 then (s.domainProtect hook ptr pageSizePKU 0).2 else s

def pkuMprotect (addr len : Nat) (prot : Int) : Int × State :=
  let s := if addr = 0 ∧ s.mmapAddr = 0 then
      let r := s.pkuMmap hook 0 len prot (0x2 ||| 0x20 : Nat) (-1) 0
      { r.2 with mmapAddr := r.1 }
    else s
  let s := if s.mmapAddr ≠ 0 then (s.domainProtect hook s.mmapAddr len 0).2 else s
  (0, s)

def pkuPkeyMprotect (addr len : Nat) (prot _pkey : Int) : Int × State :=
  s.pkuMprotect hook addr len prot

def enableSectionGuardPage (_did : Int) : Int := 0

def pkuSwitch (PKUCallID : Int) : Option (Int × State) := do
  let did := (← s.call? PKUCallID).did
  let key ← s.key? did
  let s := s.setPkey key.pkey key.perm
  some (0, s.setCurrentDid did)

def pkuRestore (did : Int) : Option (Int × State) := do
  let key ← s.key? s.getCurrentDid
  let s := s.setPkey key.pkey (pkeyDisableAccess ||| pkeyDisableWrite)
  some (0, s.setCurrentDid did)

end State

end PkuwaProofs.Guest
