import PkuwaProofs.Basic

namespace PkuwaProofs

def initBuf (head : List UInt8) : Buf := fun i => head.getD i 0

def setByte (buf : Buf) (i : Nat) (v : UInt8) : Buf := fun j => if j.val = i then v else buf j

def byteOfInt (x : Int) : UInt8 := UInt8.ofNat (x % 256).toNat

def getByte (buf : Buf) (i : Nat) : UInt8 := if h : i < 12 then buf ⟨i, h⟩ else 0

def storeBE (buf : Buf) (off temp : Nat) : Nat → Buf
  | 0 => buf
  | i + 1 => storeBE (setByte buf (off + i) (UInt8.ofNat (temp % 256))) off (temp / 256) i

/-- `for (i = off; i < off + n; i++) { temp <<= 8; temp += buf[i]; }`, on an unsigned `temp`
wide enough for the four bytes read. -/
def loadBE (buf : Buf) (temp off : Nat) : Nat → Nat
  | 0 => temp
  | n + 1 => loadBE buf (temp * 256 + (getByte buf off).toNat) (off + 1) n

@[simp] theorem setByte_apply (buf : Buf) (i : Nat) (v : UInt8) (j : Fin 12) :
    setByte buf i v j = if j.val = i then v else buf j := rfl

namespace Core

/-- `WASICALL` is `getentropy`: when the host fails, it sets `errno` to the host's code and
returns `-1`, which its callers only compare with `0`. -/
def wasiCall (s : Core) (hook : Hook) (buf : Buf) : HostReply × Core :=
  let reply := hook buf
  (reply, { s with
    trace := s.trace ++ [.wasiCall buf]
    errno := if reply.error ≠ 0 then reply.error else s.errno })

@[simp] theorem wasiCall_fst (s : Core) (hook : Hook) (buf : Buf) :
    (s.wasiCall hook buf).1 = hook buf := rfl

@[simp] theorem wasiCall_keys (s : Core) (hook : Hook) (buf : Buf) :
    (s.wasiCall hook buf).2.keys = s.keys := rfl

@[simp] theorem wasiCall_registeredPKUCalls (s : Core) (hook : Hook) (buf : Buf) :
    (s.wasiCall hook buf).2.registeredPKUCalls = s.registeredPKUCalls := rfl

@[simp] theorem wasiCall_pkru (s : Core) (hook : Hook) (buf : Buf) :
    (s.wasiCall hook buf).2.pkru = s.pkru := rfl

@[simp] theorem wasiCall_trace (s : Core) (hook : Hook) (buf : Buf) :
    (s.wasiCall hook buf).2.trace = s.trace ++ [.wasiCall buf] := rfl

@[simp] theorem wasiCall_errno (s : Core) (hook : Hook) (buf : Buf) :
    (s.wasiCall hook buf).2.errno = if (hook buf).error ≠ 0 then (hook buf).error else s.errno := rfl

end Core

def protectRequest (head : List UInt8) (addr length pkey : Nat) : Buf :=
  let buf := initBuf head
  let buf := storeBE buf 2 addr 4
  let buf := storeBE buf 6 length 4
  let buf := setByte buf 10 3
  setByte buf 11 (UInt8.ofNat pkey)

def Core.domainProtectWith (head : List UInt8) (hook : Hook) (s : Core)
    (addr length pkey : Nat) : Int × Core :=
  (0, (s.wasiCall hook (protectRequest head addr length pkey)).2)

def Core.writePKRUWith (head : List UInt8) (hook : Hook) (s : Core) (pkru : Nat) :
    Int × Core :=
  let call := s.wasiCall hook (storeBE (initBuf head) 3 pkru 4)
  if call.1.error ≠ 0 then (-1, call.2) else (0, call.2)

def readPKRUAcc (buf : Buf) : Int :=
  (BitVec.ofNat 32 (loadBE buf 0 3 4)).toInt

def Core.readPKRUWith (head : List UInt8) (hook : Hook) (s : Core) : Int × Core :=
  let call := s.wasiCall hook (initBuf head)
  if call.1.error ≠ 0 then (-1, call.2) else (readPKRUAcc call.1.buf, call.2)

theorem Core.readPKRUWith_snd (head : List UInt8) (hook : Hook) (s : Core) :
    (s.readPKRUWith head hook).2 = (s.wasiCall hook (initBuf head)).2 := by
  unfold readPKRUWith
  dsimp only
  split <;> rfl

theorem Core.readPKRUWith_ok (s : Core) (head : List UInt8) (hook : Hook)
    (h : (hook (initBuf head)).error = 0) :
    (s.readPKRUWith head hook).1 = readPKRUAcc (hook (initBuf head)).buf := by
  simp [readPKRUWith, h]

end PkuwaProofs
