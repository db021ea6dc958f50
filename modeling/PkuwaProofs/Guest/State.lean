import PkuwaProofs.Registry

namespace PkuwaProofs.Guest

structure SMprotect where
  addr : Nat
  used : Bool

structure PKUData where
  initialized : Bool
  userHandler : Nat
  domains : Fin numDomains → PKUKey
  ranges : Fin numMprotectRanges → SMprotect

structure State extends Core where
  gData : PKUData
  gInitialized : Bool
  mmapAddr : Nat
  gsMmapMemory : BitVec 32
  currentDid : Int

def zeroState (pkru : BitVec 32) : State where
  keys := fun _ => PKUKey.zero
  registeredPKUCalls := fun _ => PKUCall.zero
  pkru := pkru
  trace := []
  gData := ⟨false, 0, fun _ => PKUKey.zero, fun _ => ⟨0, false⟩⟩
  gInitialized := false
  mmapAddr := 0
  gsMmapMemory := 0
  currentDid := 0
  errno := 0

def pkuInitCtor (s : State) : State :=
  let root := s.keys 0
  { s with keys := Function.update s.keys 0 { root with perm := 0, pkey := 0, used := true } }

def initial (pkru : BitVec 32) : State := pkuInitCtor (zeroState pkru)

namespace State

variable (s : State)

/-- Modelled from the spec: `GetCurrentDid` is not in the repository; it reads the domain the
calling thread runs in, the root when the process starts. -/
def getCurrentDid : Int := s.currentDid

/-- Modelled from the spec: `SetCurrentDid` is not in the repository; it records the domain
the calling thread runs in. -/
def setCurrentDid (did : Int) : State := { s with currentDid := did }

def withCore (r : Int × Core) : Int × State := (r.1, { s with toCore := r.2 })

def setPkey (pkey : UInt16) (prot : BitVec 32) : State :=
  { s with toCore := s.toCore.setPkey pkey prot }

def domainExists (did : Int) : Bool := s.toCore.domainExists did

@[simp] theorem withCore_fst (r : Int × Core) : (s.withCore r).1 = r.1 := rfl

@[simp] theorem withCore_toCore (r : Int × Core) : (s.withCore r).2.toCore = r.2 := rfl

@[simp] theorem withCore_gData (r : Int × Core) : (s.withCore r).2.gData = s.gData := rfl

@[simp] theorem withCore_currentDid (r : Int × Core) :
    (s.withCore r).2.currentDid = s.currentDid := rfl

@[simp] theorem setPkey_toCore (pkey : UInt16) (prot : BitVec 32) :
    (s.setPkey pkey prot).toCore = s.toCore.setPkey pkey prot := rfl

@[simp] theorem setPkey_gData (pkey : UInt16) (prot : BitVec 32) :
    (s.setPkey pkey prot).gData = s.gData := rfl

@[simp] theorem setPkey_currentDid (pkey : UInt16) (prot : BitVec 32) :
    (s.setPkey pkey prot).currentDid = s.currentDid := rfl

@[simp] theorem setCurrentDid_toCore (did : Int) : (s.setCurrentDid did).toCore = s.toCore := rfl

@[simp] theorem setCurrentDid_gData (did : Int) : (s.setCurrentDid did).gData = s.gData := rfl

@[simp] theorem setCurrentDid_currentDid (did : Int) :
    (s.setCurrentDid did).currentDid = did := rfl

end State

end PkuwaProofs.Guest
