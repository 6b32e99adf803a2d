import Winspire.Lib.Wire
import Winspire.Netblk.Disk

/-!
# The disk server of netblock_server.c

`handle_client` as a program over the client's socket and the operations of the host: the
clock, the mapped view of the image and the image file. Fields of a request are fixed-width
and their arithmetic wraps as in C. Counters that are only logged are left out.
-/

namespace Winspire.Server

open Interaction Netblk

set_option autoImplicit false

def netblkIoChunkBytes : Nat := 64 * 1024

def netblkProtocolMaxPayload : Nat := netblkMaxSectors * sectorSize

inductive HostOp where
  | time
  | readView (offset bytes : Nat)
  | writeView (offset : Nat) (data : List UInt8)
  | setFilePointer (offset : Int)
  | readFile (want : Nat)
  | writeFile (data : List UInt8)
  | flushView
  | flushFile

/-- `time(NULL)` is signed. The file functions report how much they transferred, or fail. -/
@[reducible] def hostSig : Signature where
  Op := HostOp
  Answer
    | .time => Int
    | .readView _ _ => List UInt8
    | .writeView _ _ => Unit
    | .setFilePointer _ => Bool
    | .readFile _ => Option (List UInt8)
    | .writeFile _ => Option Nat
    | .flushView | .flushFile => Bool

abbrev ServerProg := Prog (wire hostSig)

/-- The image has a positive signed 64-bit size. `imageView` says whether it could be mapped. -/
structure ServerState where
  cfg : ServerConfig
  imageView : Bool
  imageBytes : Nat
  imageBytes_pos : 0 < imageBytes
  imageBytes_lt : imageBytes < 2 ^ 63

def ServerState.sectorCount (st : ServerState) : UInt64 := .ofNat (st.imageBytes / sectorSize)

def ServerState.maxBytes (st : ServerState) : UInt32 := .ofNat st.cfg.maxSectors * 512

def sendHeader (op : UInt16) (lba : UInt64) (count bytes status flags : UInt32) : ServerProg Bool :=
  sendAll netblkIoChunkBytes (initHeader op lba count bytes status flags).encode

abbrev HostProg := Prog hostSig

/-- The loop of `read_file_exact`; every round reads at least one byte. -/
def readFileLoop : Nat → Nat → List UInt8 → HostProg (Option (List UInt8))
  | _, 0, acc => .ret (some acc)
  | 0, _ + 1, _ => .ret none
  | fuel + 1, want + 1, acc => .ask (.readFile (want + 1)) fun
    | some (b :: bs) => readFileLoop fuel (want + 1 - (b :: bs).length) (acc ++ b :: bs)
    | _ => .ret none

def readFileExact (offset : UInt64) (bytes : Nat) : HostProg (Option (List UInt8)) :=
  .ask (.setFilePointer offset.toBitVec.toInt) fun (ok : Bool) =>
    if ok then readFileLoop bytes bytes [] else .ret none

def writeFileLoop : Nat → List UInt8 → HostProg Bool
  | _, [] => .ret true
  | 0, _ :: _ => .ret false
  | fuel + 1, b :: bs => .ask (.writeFile (b :: bs)) fun
    | some (k + 1) => writeFileLoop fuel ((b :: bs).drop (k + 1))
    | _ => .ret false

def writeFileExact (offset : UInt64) (data : List UInt8) : HostProg Bool :=
  .ask (.setFilePointer offset.toBitVec.toInt) fun (ok : Bool) =>
    if ok then writeFileLoop data.length data else .ret false

/-- The bytes `send_image_exact` sends, from the view or through its transfer buffer. -/
def readImage (st : ServerState) (offset : UInt64) (bytes : UInt32) :
    HostProg (Option (List UInt8)) :=
  if st.imageView then
    .ask (.readView offset.toNat bytes.toNat) fun (data : List UInt8) => .ret (some data)
  else readFileExact offset bytes.toNat

def sendImageExact (st : ServerState) (offset : UInt64) (bytes : UInt32) : ServerProg Bool := do
  match ← offWire (readImage st offset bytes) with
  | none => return false
  | some data => sendAll netblkIoChunkBytes data

def writeImageExact (st : ServerState) (offset : UInt64) (data : List UInt8) : HostProg Bool :=
  if st.imageView then .ask (.writeView offset.toNat data) fun _ => .ret true
  else writeFileExact offset data

def flushImage (st : ServerState) : HostProg Bool := do
  let ok ← if st.imageView then Prog.perform (S := hostSig) .flushView else .ret true
  if ok then Prog.perform (S := hostSig) .flushFile else return false

/-- The loop of `recv_image_write` in chunks of at most `scratchBytes`. -/
def recvImageWriteLoop (st : ServerState) (scratchBytes : Nat) :
    Nat → UInt64 → Nat → ServerProg Bool
  | _, _, 0 => .ret true
  | 0, _, _ + 1 => .ret false
  | fuel + 1, offset, bytes + 1 =>
    let chunk := min (bytes + 1) scratchBytes
    if chunk = 0 then .ret false
    else do
      match ← recvAll netblkIoChunkBytes chunk with
      | none => return false
      | some data =>
        if ← offWire (writeImageExact st offset data) then
          recvImageWriteLoop st scratchBytes fuel (offset + .ofNat chunk) (bytes + 1 - chunk)
        else return false

def recvImageWrite (st : ServerState) (offset : UInt64) (bytes : UInt32) : ServerProg Bool :=
  recvImageWriteLoop st st.maxBytes.toNat bytes.toNat offset bytes.toNat

def recvDiscardLoop (scratchBytes : Nat) : Nat → Nat → ServerProg Bool
  | _, 0 => .ret true
  | 0, _ + 1 => .ret false
  | fuel + 1, bytes + 1 =>
    let chunk := min (bytes + 1) scratchBytes
    if chunk = 0 then .ret false
    else do
      match ← recvAll netblkIoChunkBytes chunk with
      | none => return false
      | some _ => recvDiscardLoop scratchBytes fuel (bytes + 1 - chunk)

def recvDiscard (st : ServerState) (bytes : UInt32) : ServerProg Bool :=
  recvDiscardLoop st.maxBytes.toNat bytes.toNat bytes.toNat

/-- Back to the top of the loop, or out of it. -/
inductive Outcome where
  | again (writeCount : Nat)
  | stop (rc : Int) (writeCount : Nat)
  deriving DecidableEq

/-- The checks of a READ, on wrapping arithmetic. -/
def readRejected (st : ServerState) (h : NetBlockHeader) : Bool :=
  h.count == 0 || (UInt32.ofNat st.cfg.maxSectors < h.count ||
    (h.lba + h.count.toUInt64 < h.lba || st.sectorCount < h.lba + h.count.toUInt64))

/-- The checks of a WRITE. The product is taken before the count is bounded. -/
def writeRejected (st : ServerState) (h : NetBlockHeader) : Bool :=
  st.cfg.readOnly || (h.count == 0 || (UInt32.ofNat netblkMaxSectors < h.count ||
    (h.bytes != h.count * 512 ||
      (h.lba + h.count.toUInt64 < h.lba || st.sectorCount < h.lba + h.count.toUInt64))))

def serveTime (wc : Nat) : ServerProg Outcome := do
  let wallTime : Int ← offWire (Prog.perform (S := hostSig) .time)
  if wallTime < 0 then
    let _ ← sendHeader netblkOpTime 0 0 0 netblkStatusBadOp 0
    return .again wc
  else
    let ok ← sendHeader netblkOpTime (.ofInt wallTime) 0 0 netblkStatusOk 0
    return .stop (if ok then 0 else -1) wc

def serveHello (st : ServerState) (wc : Nat) : ServerProg Outcome := do
  let ok ← sendHeader netblkOpHello st.sectorCount 512 (.ofNat st.cfg.maxSectors) 0
    (if st.cfg.readOnly then 0 else 1)
  return if ok then .again wc else .stop (-1) wc

def serveRead (st : ServerState) (h : NetBlockHeader) (wc : Nat) : ServerProg Outcome :=
  if readRejected st h then do
    let _ ← sendHeader netblkOpRead 0 0 0 netblkStatusRange 0
    return .again wc
  else do
    let need := h.count * 512
    if ← sendHeader netblkOpRead h.lba h.count need 0 0 then
      let ok ← sendImageExact st (h.lba * 512) need
      return if ok then .again wc else .stop (-1) wc
    else return .stop (-1) wc

def serveWrite (st : ServerState) (h : NetBlockHeader) (wc : Nat) : ServerProg Outcome :=
  if writeRejected st h then
    if h.bytes ≠ 0 ∧ h.bytes.toNat ≤ netblkProtocolMaxPayload then do
      if ← recvDiscard st h.bytes then
        let _ ← sendHeader netblkOpWrite 0 0 0 netblkStatusWrite 0
        return .again wc
      else return .stop (-1) wc
    else if h.bytes ≠ 0 then .ret (.stop (-1) wc)
    else do
      let _ ← sendHeader netblkOpWrite 0 0 0 netblkStatusWrite 0
      return .again wc
  else do
    if ← recvImageWrite st (h.lba * 512) (h.count * 512) then
      let ok ← sendHeader netblkOpWrite h.lba h.count 0 0 0
      return if ok then .again (wc + 1) else .stop (-1) wc
    else
      let _ ← sendHeader netblkOpWrite 0 0 0 netblkStatusWrite 0
      return .stop (-1) wc

def serveFlush (st : ServerState) (wc : Nat) : ServerProg Outcome := do
  let ok ← if ¬st.cfg.readOnly ∧ st.cfg.strictFlush then offWire (flushImage st) else .ret true
  let sent ← sendHeader netblkOpFlush 0 0 0 (if ok then netblkStatusOk else netblkStatusWrite) 0
  return if sent then .again wc else .stop (-1) wc

/-- PING and every unknown operation take a payload that fits the transfer buffer. -/
def servePayload (st : ServerState) (h : NetBlockHeader) (op : UInt16) (status : UInt32) (wc : Nat) :
    ServerProg Outcome :=
  if st.maxBytes < h.bytes then .ret (.stop (-1) wc)
  else do
    match ← if h.bytes = 0 then .ret (some []) else recvAll netblkIoChunkBytes h.bytes.toNat with
    | none => return .stop (-1) wc
    | some _ =>
      let ok ← sendHeader op 0 0 0 status 0
      return if ok then .again wc else .stop (-1) wc

def servePing (st : ServerState) (h : NetBlockHeader) (wc : Nat) : ServerProg Outcome :=
  servePayload st h netblkOpPing 0 wc

def serveUnknown (st : ServerState) (h : NetBlockHeader) (wc : Nat) : ServerProg Outcome :=
  servePayload st h h.op netblkStatusBadOp wc

def dispatch (st : ServerState) (h : NetBlockHeader) (wc : Nat) : ServerProg Outcome :=
  if h.op = netblkOpTime then serveTime wc
  else if h.op = netblkOpHello then serveHello st wc
  else if h.op = netblkOpRead then serveRead st h wc
  else if h.op = netblkOpWrite then serveWrite st h wc
  else if h.op = netblkOpFlush then serveFlush st wc
  else if h.op = netblkOpPing then servePing st h wc
  else serveUnknown st h wc

/-- One round of the loop of `handle_client`. -/
def serveRequest (st : ServerState) (wc : Nat) : ServerProg Outcome := do
  match ← recvAll netblkIoChunkBytes NetBlockHeader.size with
  | none => return .stop 0 wc
  | some raw =>
    let h := NetBlockHeader.decode raw
    if h.magic ≠ netblkMagic then return .stop (-1) wc
    else if h.version ≠ netblkVersion then
      let _ ← sendHeader h.op 0 0 0 netblkStatusBadVersion 0
      return .again wc
    else dispatch st h wc

/-- `handle_client` cut off after a number of requests, with the flush at its end. -/
def handleClient (st : ServerState) : Nat → Nat → ServerProg (Option Int)
  | 0, _ => .ret none
  | rounds + 1, wc => do
    match ← serveRequest st wc with
    | .again wc => handleClient st rounds wc
    | .stop rc wc =>
      if ¬st.cfg.readOnly ∧ wc ≠ 0 then
        let _ ← offWire (flushImage st)
        return some rc
      else return some rc

end Winspire.Server
