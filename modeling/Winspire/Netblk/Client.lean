import Winspire.Lib.Interaction
import Winspire.Netblk.Protocol

/-!
# The network disk of ide.c

`BlockDeviceNet` and the functions that read and change it, with the array sizes of
release_config.h. Requests to the server and allocations are operations of the
environment; everything between two of them is computed here as the source computes it.

Buffers that `block_device_init_net` allocates are never NULL afterwards, so the tests for
them are left out. The three write-back arrays are allocated on the first write; together
they are one flag, and their entries below `writeback_count` are one list.
-/

namespace Winspire.Netblk

open Interaction

set_option autoImplicit false

def netblkReadCacheSectors : Nat := 128
def netblkReadCacheWindows : Nat := 16
def netblkWriteBufferSectors : Nat := 1024
def netblkWritebackSectors : Nat := 2048

/-- The place in the source a WRITE request is issued from. It is not on the wire. -/
inductive WriteSite where
  | pending
  | table
  | direct
  deriving DecidableEq

/-- The header of a ping carries a state of the machine in its other fields. -/
structure PingHeader where
  header : NetBlockHeader
  magic_eq : header.magic = netblkMagic
  version_eq : header.version = netblkVersion
  op_eq : header.op = netblkOpPing
  bytes_eq : header.bytes = 72

inductive Request where
  | hello (profile : UInt32)
  | read (lba count : Nat)
  | write (site : WriteSite) (lba : Nat) (data : List Sector)
  | flush
  | ping (header : PingHeader) (tel : NetPingTelemetry)

/-- An accepted response: its header and, for READ, the sectors that follow it. -/
structure Response where
  header : NetBlockHeader
  data : List Sector := []

inductive NetOp where
  | request (q : Request)
  | alloc
  | netWaitUs

/-- A request that fails has no response. An allocation may fail. `net_wait_us` is a sum of
wall-clock differences, so its value is the environment's. -/
@[reducible] def netSig : Signature where
  Op := NetOp
  Answer
    | .request _ => Option Response
    | .alloc => Bool
    | .netWaitUs => UInt64

structure ReadWindow where
  sector : Nat := 0
  sectors : Nat := 0
  data : List Sector := []

structure WritebackEntry where
  sector : Nat
  data : Sector
  dirty : Bool

structure BlockDeviceNet where
  readOnly : Bool
  writable : Bool := false
  maxSectors : Nat := 0
  prefetchSectors : Nat := 0
  nbSectors : Nat := 0
  readCache : List ReadWindow
  readCacheNext : Nat := 0
  writeBuffer : Nat → Sector
  writeSector : Nat := 0
  writeSectors : Nat := 0
  writebackReady : Bool := false
  writeback : List WritebackEntry := []
  writebackEnabled : Bool
  cacheHits : Nat := 0
  cacheMisses : Nat := 0
  storedSectors : Nat := 0
  writebackFlushes : Nat := 0

abbrev NetProg := Prog netSig

def request (q : Request) : NetProg (Option Response) := .ask (.request q) .ret

theorem request_bind {α : Type} (q : Request) (k : Option Response → NetProg α) :
    (request q >>= k) = .ask (.request q) k := rfl

def netblkHeaderInit (op : UInt16) (lba : UInt64) (count bytes flags : UInt32) : NetBlockHeader where
  magic := netblkMagic
  version := netblkVersion
  op := op
  lba := lba
  count := count
  bytes := bytes
  status := 0
  flags := flags

def ReadWindow.holds (w : ReadWindow) (sector : Nat) : Bool :=
  w.sectors ≠ 0 && (w.sector ≤ sector && sector < w.sector + w.sectors)

def netblkInvalidate (bn : BlockDeviceNet) (sectorNum n : Nat) : BlockDeviceNet :=
  if n = 0 then bn
  else { bn with readCache := bn.readCache.map fun w =>
    if w.sectors ≠ 0 ∧ sectorNum < w.sector + w.sectors ∧ w.sector < sectorNum + n
    then { w with sectors := 0 } else w }

/-- The first window that holds the sector. -/
def netblkFindCache (bn : BlockDeviceNet) (sectorNum : Nat) : Option ReadWindow :=
  bn.readCache.find? fun w => w.holds sectorNum

def netblkNextCached (bn : BlockDeviceNet) (sectorNum requestEnd : Nat) : Nat :=
  bn.readCache.foldl
    (fun next w =>
      if w.sectors ≠ 0 ∧ sectorNum < w.sector ∧ w.sector < next then w.sector else next)
    requestEnd

def netblkWritebackFind (bn : BlockDeviceNet) (sectorNum : Nat) : Option Nat :=
  if bn.writebackReady then
    bn.writeback.findIdx? fun e => e.dirty && e.sector == sectorNum
  else none

def netblkFlushWrites (bn : BlockDeviceNet) : NetProg (Int × BlockDeviceNet) :=
  if bn.writeSectors = 0 then .ret (0, bn)
  else do
    match ← request (.write .pending bn.writeSector (slice bn.writeBuffer 0 bn.writeSectors)) with
    | some _ => return (0, { bn with writeSectors := 0 })
    | none => return (-1, bn)

/-- The dirty entry of lowest sector number, starting from `best = UINT64_MAX`. -/
def netblkBestDirty (bn : BlockDeviceNet) : Option Nat :=
  (bn.writeback.foldl
    (fun best e => if e.dirty ∧ e.sector < best.1 then (e.sector, true) else best)
    (2 ^ 64 - 1, false)) |> fun best => if best.2 then some best.1 else none

/-- Copy consecutive dirty sectors from `sector` on into the write buffer, marking each one
clean. The first argument is what `run` has left below its limit. -/
def netblkGatherRun (sector : Nat) : Nat → Nat → BlockDeviceNet → BlockDeviceNet × Nat
  | 0, run, bn => (bn, run)
  | left + 1, run, bn =>
    match netblkWritebackFind bn (sector + run) with
    | none => (bn, run)
    | some idx =>
      match bn.writeback[idx]? with
      | none => (bn, run)
      | some e =>
        netblkGatherRun sector left (run + 1) { bn with
          writeBuffer := blit bn.writeBuffer run [e.data]
          writeback := bn.writeback.set idx { e with dirty := false } }

/-- The `for (;;)` of `netblk_drain_writes`. Every round but the last marks an entry clean, so
the number of entries is enough fuel. -/
def netblkDrainLoop : Nat → BlockDeviceNet → NetProg (Int × BlockDeviceNet)
  | fuel, bn =>
    match netblkBestDirty bn with
    | none => .ret (0, { bn with writeback := [] })
    | some sector =>
      match fuel with
      | 0 => .ret (-1, bn)
      | fuel + 1 =>
        let (bn, run) := netblkGatherRun sector netblkWriteBufferSectors 0 bn
        if run = 0 then .ret (-1, bn)
        else .ask (.request (.write .table sector (slice bn.writeBuffer 0 run))) fun
          | none => .ret (-1, bn)
          | some _ => netblkDrainLoop fuel { bn with writebackFlushes := bn.writebackFlushes + 1 }

def netblkDrainWrites (bn : BlockDeviceNet) : NetProg (Int × BlockDeviceNet) :=
  if ¬bn.writebackReady ∨ bn.writeback.length = 0 then netblkFlushWrites bn
  else do
    let (rc, bn) ← netblkFlushWrites bn
    if rc < 0 then return (-1, bn)
    else netblkDrainLoop bn.writeback.length bn

def netblkFlush (bn : BlockDeviceNet) : NetProg (Int × BlockDeviceNet) :=
  if bn.readOnly ∨ ¬bn.writable then .ret (0, bn)
  else do
    let (rc, bn) ← netblkDrainWrites bn
    if rc < 0 then return (-1, bn)
    else
      match ← request .flush with
      | some _ => return (0, bn)
      | none => return (-1, bn)

def netblkAllocWrites (bn : BlockDeviceNet) : NetProg (Bool × BlockDeviceNet) :=
  if ¬bn.writebackEnabled then .ret (false, bn)
  else if bn.writebackReady then .ret (true, bn)
  else .ask .alloc fun (ok : Bool) => .ret (ok, { bn with writebackReady := ok })

/-- The loop of `netblk_store_write` from element `s` on, with `left` elements to go. -/
def netblkStoreLoop (sectorNum : Nat) (buf : Nat → Sector) :
    Nat → Nat → BlockDeviceNet → NetProg (Int × BlockDeviceNet)
  | 0, _, bn => .ret (1, bn)
  | left + 1, s, bn =>
    match netblkWritebackFind bn (sectorNum + s) with
    | some idx =>
      netblkStoreLoop sectorNum buf left (s + 1) { bn with
        writeback := bn.writeback.set idx ⟨sectorNum + s, buf s, true⟩
        storedSectors := bn.storedSectors + 1 }
    | none => do
      let (rc, bn) ← if netblkWritebackSectors ≤ bn.writeback.length then netblkDrainWrites bn
        else .ret (0, bn)
      if rc < 0 then return (-1, bn)
      else netblkStoreLoop sectorNum buf left (s + 1) { bn with
        writeback := bn.writeback ++ [⟨sectorNum + s, buf s, true⟩]
        storedSectors := bn.storedSectors + 1 }

/-- 1 when stored, 0 when write-back is not used, -1 when a drain failed half way. -/
def netblkStoreWrite (bn : BlockDeviceNet) (sectorNum : Nat) (buf : Nat → Sector) (n : Nat) :
    NetProg (Int × BlockDeviceNet) :=
  if ¬bn.writebackEnabled ∨ n = 0 then .ret (0, bn)
  else do
    let (ok, bn) ← netblkAllocWrites bn
    if ¬ok then return (0, bn)
    else netblkStoreLoop sectorNum buf n 0 bn

def netblkWriteOverlaps (bn : BlockDeviceNet) (sectorNum n : Nat) : Bool :=
  if n = 0 then false
  else
    let readEnd := sectorNum + n
    (bn.writeSectors ≠ 0 &&
      (sectorNum < bn.writeSector + bn.writeSectors && bn.writeSector < readEnd)) ||
    ((bn.writebackEnabled && bn.writebackReady) &&
      bn.writeback.any fun e => e.dirty && (sectorNum ≤ e.sector && e.sector < readEnd))

/-- The window the source fetches on a miss at `cur`: first sector and length. -/
def netblkFetchWindow (bn : BlockDeviceNet) (cur requestEnd : Nat) : Nat × Nat :=
  let nextCached := netblkNextCached bn cur requestEnd
  let missing := nextCached - cur
  let wanted := if missing = 0 then 1 else missing
  let prefetch := nextCached = requestEnd ∧ wanted < bn.prefetchSectors
  let fetchStart := if prefetch ∧ 1 < bn.prefetchSectors
    then cur / bn.prefetchSectors * bn.prefetchSectors else cur
  let fetchSectors := if prefetch then bn.prefetchSectors else wanted
  let fetchSectors := min (min fetchSectors bn.maxSectors) netblkReadCacheSectors
  let fetchSectors := min fetchSectors (bn.nbSectors - fetchStart)
  if fetchStart + fetchSectors ≤ cur then (cur, wanted) else (fetchStart, fetchSectors)

def BlockDeviceNet.copied (bn : BlockDeviceNet) (copySectors : Nat) : BlockDeviceNet :=
  { bn with cacheHits := bn.cacheHits + copySectors }

def BlockDeviceNet.fetched (bn : BlockDeviceNet) (start count : Nat) (data : List Sector) :
    BlockDeviceNet :=
  { bn with
    cacheMisses := bn.cacheMisses + count
    readCache := bn.readCache.set bn.readCacheNext ⟨start, count, data⟩
    readCacheNext := (bn.readCacheNext + 1) % netblkReadCacheWindows }

/-- A failed READ may have overwritten the slot; the source forgets it. -/
def BlockDeviceNet.dropSlot (bn : BlockDeviceNet) : BlockDeviceNet :=
  { bn with readCache := bn.readCache.modify bn.readCacheNext fun w => { w with sectors := 0 } }

/-- The `while (cur < request_end)` of `netblk_read_async`; `buf` is what has been copied. -/
def netblkReadLoop (requestEnd : Nat) :
    Nat → BlockDeviceNet → Nat → List Sector → NetProg (Int × BlockDeviceNet × List Sector)
  | fuel, bn, cur, buf =>
    if cur < requestEnd then
      match fuel with
      | 0 => .ret (-1, bn, buf)
      | fuel + 1 =>
        match netblkFindCache bn cur with
        | some w =>
          let copyEnd := min (w.sector + w.sectors) requestEnd
          let copySectors := copyEnd - cur
          netblkReadLoop requestEnd fuel (bn.copied copySectors) copyEnd
            (buf ++ (w.data.drop (cur - w.sector)).take copySectors)
        | none =>
          let (fetchStart, fetchSectors) := netblkFetchWindow bn cur requestEnd
          if fetchSectors = 0 then .ret (-1, bn, buf)
          else .ask (.request (.read fetchStart fetchSectors)) fun
            | none => .ret (-1, bn.dropSlot, buf)
            | some resp => netblkReadLoop requestEnd fuel
                (bn.fetched fetchStart fetchSectors resp.data) cur buf
    else .ret (0, bn, buf)

/-- Every miss is followed by a hit, so `2 * n` rounds are enough. -/
def netblkReadAsync (bn : BlockDeviceNet) (sectorNum : Nat) (n : Int) :
    NetProg (Int × BlockDeviceNet × List Sector) :=
  if n < 0 ∨ n > bn.maxSectors ∨ sectorNum > bn.nbSectors ∨ n > bn.nbSectors - sectorNum then
    .ret (-1, bn, [])
  else do
    let n := n.toNat
    let (rc, bn) ← if netblkWriteOverlaps bn sectorNum n then netblkDrainWrites bn
      else .ret (0, bn)
    if rc < 0 then return (-1, bn, [])
    else netblkReadLoop (sectorNum + n) (2 * n) bn sectorNum []

/-- The buffer with `n` more sectors, which start where it ends. -/
def BlockDeviceNet.appended (bn : BlockDeviceNet) (sectorNum : Nat) (buf : Nat → Sector) (n : Nat) :
    BlockDeviceNet :=
  { bn with
    writeSector := if bn.writeSectors = 0 then sectorNum else bn.writeSector
    writeBuffer := blit bn.writeBuffer bn.writeSectors (slice buf 0 n)
    writeSectors := bn.writeSectors + n }

/-- The end of `netblk_write_async`: coalesce the request into the pending buffer. -/
def netblkBufferWrite (bn : BlockDeviceNet) (sectorNum : Nat) (buf : Nat → Sector) (n : Nat) :
    NetProg (Int × BlockDeviceNet) := do
  let (rc, bn) ← if bn.writeSectors ≠ 0 ∧ (bn.writeSector + bn.writeSectors ≠ sectorNum ∨
      bn.writeSectors + n > netblkWriteBufferSectors)
    then netblkFlushWrites bn else .ret (0, bn)
  if rc < 0 then return (-1, bn)
  else
    let bn := bn.appended sectorNum buf n
    if bn.writeSectors ≥ netblkWriteBufferSectors then netblkFlushWrites bn
    else return (0, bn)

def netblkWriteAsync (bn : BlockDeviceNet) (sectorNum : Nat) (buf : Nat → Sector) (n : Int) :
    NetProg (Int × BlockDeviceNet) :=
  if bn.readOnly ∨ ¬bn.writable ∨ n < 0 ∨ n > bn.maxSectors ∨ sectorNum > bn.nbSectors ∨
      n > bn.nbSectors - sectorNum then
    .ret (-1, bn)
  else do
    let n := n.toNat
    let bn := netblkInvalidate bn sectorNum n
    let (stored, bn) ← if n ≤ netblkWritebackSectors then netblkStoreWrite bn sectorNum buf n
      else .ret (0, bn)
    if stored ≠ 0 then return (0, bn)
    else if n > netblkWriteBufferSectors then
      let (rc, bn) ← netblkDrainWrites bn
      if rc < 0 then return (-1, bn)
      else
        match ← request (.write .direct sectorNum (slice buf 0 n)) with
        | some _ => return (0, bn)
        | none => return (-1, bn)
    else netblkBufferWrite bn sectorNum buf n

structure PingInfo where
  loop : UInt64 := 0
  cycles : UInt32 := 0
  cs : UInt32 := 0
  ip : UInt32 := 0
  phys : UInt32 := 0
  flags : UInt32 := 0
  state : UInt32 := 0
  code : Option (Vector UInt8 8) := none

def pingCode (code : Option (Vector UInt8 8)) (i : Nat) : UInt32 :=
  match code with
  | none => 0
  | some c => (c.toList.drop i).take 4 |>.foldl (fun acc b => acc <<< 8 ||| b.toUInt32) 0

def netblkPing (bn : BlockDeviceNet) (info : PingInfo) : NetProg Int :=
  .ask .netWaitUs fun (netWaitUs : UInt64) =>
    let tel : NetPingTelemetry := {
      magic := 0x50494e47
      phys := info.phys
      flags := info.flags
      state := info.state
      code03 := pingCode info.code 0
      code47 := pingCode info.code 4
      netWaitUsLo := netWaitUs.toUInt32
      netWaitUsHi := (netWaitUs >>> 32).toUInt32
      readHitSectors := .ofNat bn.cacheHits
      readMissSectors := .ofNat bn.cacheMisses
      storedSectors := .ofNat bn.storedSectors
      writebackFlushes := .ofNat bn.writebackFlushes }
    let header := { netblkHeaderInit netblkOpPing info.loop info.cycles 72 info.phys with
      status := info.ip >>> 16
      flags := ((info.cs &&& 0xffff) <<< 16) ||| (info.ip &&& 0xffff) }
    .ask (.request (.ping ⟨header, rfl, rfl, rfl, rfl⟩ tel)) fun
      | some _ => .ret 0
      | none => .ret (-1)

/-- What `block_device_init_net` reads from its argument and the process environment: the
`netro:` prefix, the profile number, and the two settings as `atoi` returns them. -/
structure NetSettings where
  readOnly : Bool := false
  profile : UInt32 := 0
  writeback : Option Int := none
  prefetch : Option Int := none

def allocAll : Nat → NetProg Bool
  | 0 => .ret true
  | k + 1 => .ask .alloc fun (ok : Bool) => if ok then allocAll k else .ret false

def clampSectors (lo hi x : Int) : Nat := (max (min x hi) lo).toNat

/-- From the allocations on; resolving the endpoint and connecting are the environment's. -/
def blockDeviceInitNet (cfg : NetSettings) : NetProg (Option BlockDeviceNet) := do
  -- bs and bn, the read windows, the write buffer
  let ok ← allocAll (2 + netblkReadCacheWindows + 1)
  if ¬ok then return none
  else
    let bn : BlockDeviceNet := {
      readOnly := cfg.readOnly
      readCache := List.replicate netblkReadCacheWindows {}
      writeBuffer := fun _ _ => 0
      writebackEnabled := cfg.writeback.all (· ≠ 0) }
    match ← request (.hello cfg.profile) with
    | none => return none
    | some hello =>
      if hello.header.count ≠ 512 ∨ hello.header.lba = 0 then return none
      else
        let _ ← netblkPing bn {}
        let advertised : Int :=
          if hello.header.bytes = 0 then netblkMaxSectors else hello.header.bytes.toBitVec.toInt
        let maxSectors := clampSectors 1 netblkMaxSectors advertised
        let requested := (cfg.prefetch.filter (0 < ·)).getD 64
        return some { bn with
          nbSectors := hello.header.lba.toNat
          maxSectors := maxSectors
          prefetchSectors := clampSectors 1 netblkReadCacheSectors (min requested maxSectors)
          writable := hello.header.flags &&& 1 ≠ 0 }

inductive NetCall where
  | write (sectorNum : Nat) (buf : Nat → Sector) (n : Int)
  | read (sectorNum : Nat) (n : Int)
  | flush
  | drain
  | ping (info : PingInfo)

/-- The return value of a call and, for a read, what it put into the buffer. -/
structure CallResult where
  rc : Int
  buf : List Sector := []

def NetCall.run (bn : BlockDeviceNet) : NetCall → NetProg (CallResult × BlockDeviceNet)
  | .write sectorNum buf n => do
    let (rc, bn) ← netblkWriteAsync bn sectorNum buf n
    return (⟨rc, []⟩, bn)
  | .read sectorNum n => do
    let (rc, bn, out) ← netblkReadAsync bn sectorNum n
    return (⟨rc, out⟩, bn)
  | .flush => do
    let (rc, bn) ← netblkFlush bn
    return (⟨rc, []⟩, bn)
  | .drain => do
    let (rc, bn) ← netblkDrainWrites bn
    return (⟨rc, []⟩, bn)
  | .ping info => do
    let rc ← netblkPing bn info
    return (⟨rc, []⟩, bn)

end Winspire.Netblk
