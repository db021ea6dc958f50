import Mathlib.Data.Fintype.Basic
import Mathlib.Logic.Function.Basic

/-!
The data both variants of the library share: the domain table `keys`, the call table
`RegisteredPKUCalls`, the protection-key register, and the 12-byte buffer of a host call.
C arrays of fixed size are functions on `Fin n`; an `int` index goes through `slot?`, which
is `none` exactly where the C access would be out of bounds.
-/

namespace PkuwaProofs

abbrev numDomains : Nat := 16

abbrev numRegisteredPKUCalls : Nat := 64

abbrev numMprotectRanges : Nat := 4096

def pageSizePKU : Nat := 4096

def pkeyDisableAccess : BitVec 32 := 1

def pkeyDisableWrite : BitVec 32 := 2

/-- Errno values come from the C library headers, outside the repository; the Linux numbering
is used, and only their signs matter below. -/
def eperm : Int := 1

def eacces : Int := 13

def einval : Int := 22

def slot? (n : Nat) (i : Int) : Option (Fin n) :=
  if h : 0 ≤ i ∧ i < n then some ⟨i.toNat, by omega⟩ else none

theorem slot?_eq_some {n : Nat} {i : Int} {j : Fin n} : slot? n i = some j ↔ i = j := by
  unfold slot?
  split
  · constructor
    · rintro ⟨⟩; simp only [Int.toNat_of_nonneg (by omega : (0 : Int) ≤ i)]
    · rintro rfl; simp
  · simp only [reduceCtorEq, false_iff]
    rintro rfl
    omega

theorem slot?_eq_none {n : Nat} {i : Int} : slot? n i = none ↔ ¬(0 ≤ i ∧ i < n) := by
  unfold slot?
  split <;> simp_all

@[simp] theorem slot?_val {n : Nat} (j : Fin n) : slot? n j = some j :=
  slot?_eq_some.mpr rfl

def storeAt {n : Nat} {α : Type} (a : Fin n → α) (i : Int) (f : α → α) : Fin n → α :=
  match slot? n i with
  | some j => Function.update a j (f (a j))
  | none => a

theorem storeAt_cases {n : Nat} {α : Type} (a : Fin n → α) (i : Int) (f : α → α) (j : Fin n) :
    storeAt a i f j = a j ∨ storeAt a i f j = f (a j) := by
  unfold storeAt
  cases slot? n i with
  | none => exact .inl rfl
  | some k =>
    by_cases h : j = k
    · subst h; simp
    · simp [h, Function.update_noteq]

theorem storeAt_val {n : Nat} {α : Type} (a : Fin n → α) (j : Fin n) (f : α → α) :
    storeAt a j f = Function.update a j (f (a j)) := by
  simp [storeAt]

structure PKUKey where
  pkey : UInt16
  perm : BitVec 32
  used : Bool
deriving DecidableEq, Repr

def PKUKey.zero : PKUKey := ⟨0, 0, false⟩

structure PKUCall where
  did : Int
  entry : Nat
deriving DecidableEq, Repr

def PKUCall.zero : PKUCall := ⟨0, 0⟩

abbrev Buf := Fin 12 → UInt8

structure HostReply where
  error : Int
  buf : Buf

abbrev Hook := Buf → HostReply

inductive Event where
  | wrpkru (pkru : BitVec 32)
  | wasiCall (req : Buf)
  | userHandler (handler addr : Nat)
  | pkuMalloc (bytes : Nat)
  | invoke (entry : Nat)
deriving DecidableEq

structure Core where
  keys : Fin numDomains → PKUKey
  registeredPKUCalls : Fin numRegisteredPKUCalls → PKUCall
  pkru : BitVec 32
  trace : List Event
  errno : Int

namespace Core

def zero (pkru : BitVec 32) : Core := ⟨fun _ => PKUKey.zero, fun _ => PKUCall.zero, pkru, [], 0⟩

def key? (s : Core) (did : Int) : Option PKUKey := (slot? numDomains did).map s.keys

def call? (s : Core) (PKUCallID : Int) : Option PKUCall :=
  (slot? numRegisteredPKUCalls PKUCallID).map s.registeredPKUCalls

def keyAt (s : Core) (did : Int) : PKUKey := (s.key? did).getD PKUKey.zero

def domainExists (s : Core) (did : Int) : Bool :=
  match slot? numDomains did with
  | some i => (s.keys i).used
  | none => false

theorem key?_eq_some {s : Core} {did : Int} {key : PKUKey} :
    s.key? did = some key ↔ ∃ i, slot? numDomains did = some i ∧ s.keys i = key := by
  simp [key?]

theorem call?_eq_some {s : Core} {PKUCallID : Int} {call : PKUCall} :
    s.call? PKUCallID = some call ↔
      ∃ i, slot? numRegisteredPKUCalls PKUCallID = some i ∧ s.registeredPKUCalls i = call := by
  simp [call?]

theorem domainExists_iff {s : Core} {did : Int} :
    s.domainExists did = true ↔ ∃ i, slot? numDomains did = some i ∧ (s.keys i).used = true := by
  unfold domainExists
  split <;> simp_all

theorem domainExists_bounds {s : Core} {did : Int} (h : s.domainExists did = true) :
    0 ≤ did ∧ did < numDomains := by
  obtain ⟨i, hi, -⟩ := domainExists_iff.mp h
  rw [slot?_eq_some.mp hi]
  omega

theorem keyAt_val (s : Core) (i : Fin numDomains) : s.keyAt i = s.keys i := by
  simp [keyAt, key?]

end Core

end PkuwaProofs
