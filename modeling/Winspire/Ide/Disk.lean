import Winspire.Ide.State

/-!
# The hard disk

The commands of `ide_exec_cmd` and the callbacks that carry a transfer on. The block devices of
the source answer at once; the branch for one that does not only marks the drive busy.
-/

namespace Winspire.Ide

open Interaction

set_option autoImplicit false

def winRecal : UInt8 := 0x10
def winRead : UInt8 := 0x20
def winReadOnce : UInt8 := 0x21
def winWrite : UInt8 := 0x30
def winWriteOnce : UInt8 := 0x31
def winSpecify : UInt8 := 0x91
def winMultread : UInt8 := 0xc4
def winMultwrite : UInt8 := 0xc5
def winSetmult : UInt8 := 0xc6
def winFlushCache : UInt8 := 0xe7
def winFlushCacheExt : UInt8 := 0xea
def winIdentify : UInt8 := 0xec
def winReadNativeMax : UInt8 := 0xf8

/-- The sectors of the next block: 0 in the register stands for 256. -/
def IDEState.blockSectors (s : IDEState) : Nat :=
  min (if s.nsector = 0 then 256 else s.nsector.toNat) s.reqNbSectors

/-- The taskfile moves on by `n` sectors. -/
def IDEState.advance (s : IDEState) (n : Nat) : IDEState :=
  let s := ideSetSector s (ideGetSector s + n)
  { s with nsector := (s.nsector - UInt16.ofNat n) &&& 0xff }

def ideSectorReadCb (cmd : UInt8) (s : IDEState) : IdeProg IDEState := do
  let n := s.ioNbSectors
  let s := s.advance n
  let s := ideTransferStart s (512 * n)
    (if s.nsector = 0 then .sectorReadCbEnd else .sectorRead)
  ideSetIrq cmd
  return { s with status := readyStat ||| seekStat ||| drqStat, error := 0 }

def ideSectorRead (cmd : UInt8) (s : IDEState) : IdeProg IDEState :=
  let n := s.blockSectors
  let s := { s with ioNbSectors := n }
  .ask (.readAsync s.bs (.ofInt (ideGetSector s)) n) fun (ret, bytes) =>
    let s := (s.access 0 (512 * n) s.bufSize).put 0 bytes
    if ret < 0 then (ideAbortCommand s).interrupt cmd
    else if ret = 0 then ideSectorReadCb cmd s
    else .ret { s with status := readyStat ||| seekStat ||| busyStat, error := 0 }

def ideSectorReadCbEnd (s : IDEState) : IDEState :=
  ideTransferStop { s with status := readyStat ||| seekStat, error := 0 }

def ideSectorWriteCb2 (cmd : UInt8) (s : IDEState) : IdeProg IDEState :=
  let s := s.advance s.ioNbSectors
  if s.nsector = 0 then { s with status := readyStat ||| seekStat }.interrupt cmd
  else
    let n := min s.nsector.toNat s.reqNbSectors
    let s := ideTransferStart { s with ioNbSectors := n } (512 * n) .sectorWriteCb1
    { s with status := readyStat ||| seekStat ||| drqStat }.interrupt cmd

def ideSectorWriteCb1 (cmd : UInt8) (s : IDEState) : IdeProg IDEState :=
  let s := ideTransferStop s
  let n := s.ioNbSectors
  let s := s.access 0 (512 * n) s.bufSize
  .ask (.writeAsync s.bs (.ofInt (ideGetSector s)) n (slice s.ioBuffer 0 (512 * n)))
    fun (ret : Int) =>
      if ret < 0 then (ideAbortCommand s).interrupt cmd
      else if ret = 0 then ideSectorWriteCb2 cmd s
      else .ret { s with status := readyStat ||| seekStat ||| busyStat }

def ideSectorWrite (s : IDEState) : IDEState :=
  let n := s.blockSectors
  let s := ideTransferStart { s with ioNbSectors := n } (512 * n) .sectorWriteCb1
  { s with status := readyStat ||| seekStat ||| drqStat }

def ideIdentifyCb (s : IDEState) : IDEState := { ideTransferStop s with status := readyStat }

def ideExecCmd (cmd : UInt8) (s : IDEState) (val : UInt8) : IdeProg IDEState :=
  if val = winIdentify then
    let s := { ideIdentify s with status := readyStat ||| seekStat ||| drqStat }
    (ideTransferStart s 512 .identifyCb).interrupt cmd
  else if val = winSpecify ∨ val = winRecal then
    { s with error := 0, status := readyStat ||| seekStat }.interrupt cmd
  else if val = winSetmult then
    if s.nsector.toNat > s.maxMult ∨ s.nsector &&& (s.nsector - 1) ≠ 0 then
      (ideAbortCommand s).interrupt cmd
    else { s with multSectors := s.nsector.toNat, status := readyStat }.interrupt cmd
  else if val = winRead ∨ val = winReadOnce then ideSectorRead cmd { s with reqNbSectors := 1 }
  else if val = winWrite ∨ val = winWriteOnce then .ret (ideSectorWrite { s with reqNbSectors := 1 })
  else if val = winMultread then
    if s.multSectors = 0 then (ideAbortCommand s).interrupt cmd
    else ideSectorRead cmd { s with reqNbSectors := s.multSectors }
  else if val = winMultwrite then
    if s.multSectors = 0 then (ideAbortCommand s).interrupt cmd
    else .ret (ideSectorWrite { s with reqNbSectors := s.multSectors })
  else if val = winReadNativeMax then
    { ideSetSector s (s.nbSectors - 1) with status := readyStat }.interrupt cmd
  else if val = winFlushCache ∨ val = winFlushCacheExt then
    .ask (.flush s.bs) fun (ret : Int) =>
      if ret < 0 then (ideAbortCommand s).interrupt cmd
      else { s with error := 0, status := readyStat ||| seekStat }.interrupt cmd
  else (ideAbortCommand s).interrupt cmd

end Winspire.Ide
