import Winspire.Ide.Disk

/-!
# The CD drive

A packet arrives in the first 12 bytes of the buffer and its answer overwrites it there.
`ide_atapi_cmd_reply_end` hands out both answers and sectors; it tells them apart by `lba`,
which is -1 for an answer.
-/

namespace Winspire.Ide

open Interaction

set_option autoImplicit false

def atapiPacketSize : Nat := 12
def cdMaxSectors : Int := 80 * 60 * 75 * 2048 / 512

def atapiIntReasonCd : UInt16 := 0x01
def atapiIntReasonIo : UInt16 := 0x02

def senseNone : UInt8 := 0
def senseNotReady : UInt8 := 2
def senseIllegalRequest : UInt8 := 5
def senseUnitAttention : UInt8 := 6

def ascIllegalOpcode : UInt8 := 0x20
def ascLogicalBlockOor : UInt8 := 0x21
def ascInvFieldInCmdPacket : UInt8 := 0x24
def ascMediumMayHaveChanged : UInt8 := 0x28
def ascSavingParametersNotSupported : UInt8 := 0x39
def ascMediumNotPresent : UInt8 := 0x3a

def mmcProfileCdRom : Nat := 0x0008
def mmcProfileDvdRom : Nat := 0x0010

def beBytes (width value : Nat) : List UInt8 := (LittleEndian.put width value).reverse

def IDEState.beAt (s : IDEState) (off width : Nat) : Nat :=
  LittleEndian.get (slice s.ioBuffer off width).reverse

def lbaToMsf (lba : Int) : List UInt8 :=
  let lba := lba + 150
  [byteOf ((lba.tdiv 75).tdiv 60), byteOf ((lba.tdiv 75).tmod 60), byteOf (lba.tmod 75)]

def tocAddress (msf : Bool) (lba : Int) : List UInt8 :=
  if msf then 0 :: lbaToMsf lba else beBytes 4 (lba % 2 ^ 32).toNat

def cdromReadToc (nbSectors : Int) (msf : Bool) (startTrack : UInt8) : Option (List UInt8) :=
  if 1 < startTrack ∧ startTrack ≠ 0xaa then none
  else
    let body := [1, 1] ++
      (if startTrack ≤ 1 then [0, 0x14, 1, 0] ++ tocAddress msf 0 else []) ++
      [0, 0x16, 0xaa, 0] ++ tocAddress msf nbSectors
    some (beBytes 2 body.length ++ body)

def cdromReadTocRaw (nbSectors : Int) (msf : Bool) : List UInt8 :=
  let body := [1, 1,
    1, 0x14, 0, 0xa0, 0, 0, 0, 0, 1, 0x00, 0x00,
    1, 0x14, 0, 0xa1, 0, 0, 0, 0, 1, 0x00, 0x00,
    1, 0x14, 0, 0xa2, 0, 0, 0] ++ tocAddress msf nbSectors ++
    [1, 0x14, 0, 1, 0, 0, 0] ++ tocAddress msf 0
  beBytes 2 body.length ++ body

def mediaPresent (s : IDEState) : Bool := 0 < s.nbSectors
def mediaIsDvd (s : IDEState) : Bool := mediaPresent s && s.nbSectors > cdMaxSectors
def mediaIsCd (s : IDEState) : Bool := mediaPresent s && s.nbSectors ≤ cdMaxSectors

def ideAtapiCmdOk (cmd : UInt8) (s : IDEState) : IdeProg IDEState :=
  { s with
    error := 0
    status := readyStat ||| seekStat
    nsector := (s.nsector &&& ~~~7) ||| atapiIntReasonIo ||| atapiIntReasonCd }.interrupt cmd

def ideAtapiCmdError (cmd : UInt8) (s : IDEState) (senseKey asc : UInt8) : IdeProg IDEState :=
  { s with
    error := senseKey <<< 4
    status := readyStat ||| errStat
    nsector := (s.nsector &&& ~~~7) ||| atapiIntReasonIo ||| atapiIntReasonCd
    senseKey := senseKey
    asc := asc }.interrupt cmd

def ideAtapiCmdCheckStatus (cmd : UInt8) (s : IDEState) : IdeProg IDEState :=
  { s with
    error := mcErr ||| senseUnitAttention <<< 4
    status := errStat
    nsector := 0 }.interrupt cmd

def cdReadSector (s : IDEState) (lba sectorSize : Int) : IdeProg (Int × IDEState) :=
  if sectorSize = 2048 then
    .ask (.readAsync s.bs (.ofInt (lba * 4)) 4) fun (ret, bytes) =>
      .ret (ret, (s.access 0 (512 * 4) s.bufSize).put 0 bytes)
  else .ret (-1, s)

def ideAtapiIoError (cmd : UInt8) (s : IDEState) : IdeProg IDEState :=
  ideAtapiCmdError cmd s senseIllegalRequest ascLogicalBlockOor

/-- Make `size` bytes available and count them as handed out. -/
def IDEState.replyChunk (s : IDEState) (size : Int) : IDEState :=
  let s := ideTransferStart2 s s.ioBufferIndex size .atapiCmdReplyEnd
  { s with
    packetTransferSize := s.packetTransferSize - size
    elementaryTransferSize := s.elementaryTransferSize - size
    ioBufferIndex := s.ioBufferIndex + size }

/-- The size of the next elementary transfer under the byte count limit of the guest. -/
def IDEState.limitedSize (s : IDEState) : Int :=
  let limit := s.lcyl.toNat ||| s.hcyl.toNat <<< 8
  let limit := if limit = 0xffff then limit - 1 else limit
  if s.packetTransferSize > limit then ((if limit % 2 = 1 then limit - 1 else limit : Nat) : Int)
  else s.packetTransferSize

/-- The second half of `ide_atapi_cmd_reply_end`: hand out the next chunk. -/
def ideAtapiReplyNext (cmd : UInt8) (s : IDEState) : IdeProg IDEState :=
  if 0 < s.elementaryTransferSize then
    .ret (s.replyChunk (min (s.cdSectorSize - s.ioBufferIndex) s.elementaryTransferSize))
  else
    let size := s.limitedSize
    let s := { s with
      nsector := (s.nsector &&& ~~~7) ||| atapiIntReasonIo
      lcyl := byteOf size
      hcyl := byteOf (size / 256)
      elementaryTransferSize := size }
    let size := if s.lba ≠ -1 then min size (s.cdSectorSize - s.ioBufferIndex) else size
    (s.replyChunk size).interrupt cmd

def ideAtapiCmdReplyEnd (cmd : UInt8) (s : IDEState) : IdeProg IDEState :=
  if s.packetTransferSize ≤ 0 then
    let s := ideTransferStop2 s
    { s with
      status := readyStat ||| seekStat
      nsector := (s.nsector &&& ~~~7) ||| atapiIntReasonIo ||| atapiIntReasonCd }.interrupt cmd
  else if s.lba ≠ -1 ∧ s.ioBufferIndex ≥ s.cdSectorSize then do
    let (ret, s) ← cdReadSector s s.lba s.cdSectorSize
    if ret < 0 then ideAtapiIoError cmd (ideTransferStop2 s)
    else ideAtapiReplyNext cmd { s with lba := int32 (s.lba + 1), ioBufferIndex := 0 }
  else ideAtapiReplyNext cmd s

def ideAtapiCmdReply (cmd : UInt8) (s : IDEState) (size maxSize : Nat) : IdeProg IDEState :=
  ideAtapiCmdReplyEnd cmd { s with
    lba := -1
    packetTransferSize := min size maxSize
    elementaryTransferSize := 0
    ioBufferIndex := 0
    status := readyStat ||| seekStat }

def ideAtapiCmdReadPio (cmd : UInt8) (s : IDEState) (lba nbSectors sectorSize : Int) :
    IdeProg IDEState :=
  ideAtapiCmdReplyEnd cmd { s with
    lba := lba
    packetTransferSize := int32 (nbSectors * sectorSize)
    elementaryTransferSize := 0
    ioBufferIndex := sectorSize
    cdSectorSize := sectorSize
    status := readyStat ||| seekStat }

def gpcmdTestUnitReady : UInt8 := 0x00
def gpcmdRequestSense : UInt8 := 0x03
def gpcmdInquiry : UInt8 := 0x12
def gpcmdModeSense6 : UInt8 := 0x1a
def gpcmdStartStopUnit : UInt8 := 0x1b
def gpcmdPreventAllowMediumRemoval : UInt8 := 0x1e
def gpcmdReadCdvdCapacity : UInt8 := 0x25
def gpcmdRead10 : UInt8 := 0x28
def gpcmdSeek : UInt8 := 0x2b
def gpcmdReadTocPmaAtip : UInt8 := 0x43
def gpcmdGetConfiguration : UInt8 := 0x46
def gpcmdModeSense10 : UInt8 := 0x5a
def gpcmdRead12 : UInt8 := 0xa8
def gpcmdSetSpeed : UInt8 := 0xbb
def gpcmdMechanismStatus : UInt8 := 0xbd
def gpcmdReadCd : UInt8 := 0xbe

def errorCmd (cmd : UInt8) (s : IDEState) : IdeProg IDEState :=
  ideAtapiCmdError cmd s senseIllegalRequest ascInvFieldInCmdPacket

def atapiTestUnitReady (cmd : UInt8) (s : IDEState) : IdeProg IDEState :=
  if ¬s.cdromChanged then ideAtapiCmdOk cmd s
  else ideAtapiCmdError cmd { s with cdromChanged := false } senseNotReady ascMediumNotPresent

def errorRecoveryPage : List UInt8 :=
  beBytes 2 (16 + 6) ++ [0x70, 0, 0, 0, 0, 0, 0x01, 0x06, 0x00, 0x05, 0x00, 0x00, 0x00, 0x00]

def capabilitiesPage : List UInt8 :=
  beBytes 2 (28 + 6) ++ [0x70, 0, 0, 0, 0, 0, 0x2a, 0x12, 0x00, 0x00, 0x71, 0x60, 0x29, 0x00] ++ beBytes 2 706 ++ [0, 2] ++ beBytes 2 512 ++
    beBytes 2 706 ++ [0, 0, 0, 0]

def atapiModeSense (cmd : UInt8) (s : IDEState) : IdeProg IDEState :=
  let maxLen := if s.ioBuffer 0 = gpcmdModeSense10 then s.beAt 7 2 else (s.ioBuffer 4).toNat
  let action := (s.ioBuffer 2).toNat / 64
  let code := s.ioBuffer 2 &&& 0x3f
  if action = 0 then
    if code = 0x01 then ideAtapiCmdReply cmd (s.put 0 errorRecoveryPage) 16 maxLen
    else if code = 0x2a then ideAtapiCmdReply cmd (s.put 0 capabilitiesPage) 28 maxLen
    else errorCmd cmd s
  else if action = 3 then
    ideAtapiCmdError cmd s senseIllegalRequest ascSavingParametersNotSupported
  else errorCmd cmd s

def atapiRequestSense (cmd : UInt8) (s : IDEState) : IdeProg IDEState :=
  let maxLen := (s.ioBuffer 4).toNat
  let s := s.put 0 [0xf0, 0, s.senseKey, 0, 0, 0, 0, 10, 0, 0, 0, 0, s.asc, 0, 0, 0, 0, 0]
  let s := if s.senseKey = senseUnitAttention then { s with senseKey := senseNone } else s
  ideAtapiCmdReply cmd s 18 maxLen

def IDEState.packetLba (s : IDEState) : Int := int32 (s.beAt 2 4)

def atapiRead (cmd : UInt8) (s : IDEState) : IdeProg IDEState :=
  let nbSectors := if s.ioBuffer 0 = gpcmdRead10 then (s.beAt 7 2 : Int) else int32 (s.beAt 6 4)
  if nbSectors = 0 then ideAtapiCmdOk cmd s
  else ideAtapiCmdReadPio cmd s s.packetLba nbSectors 2048

def atapiReadCd (cmd : UInt8) (s : IDEState) : IdeProg IDEState :=
  let nbSectors : Int := s.beAt 6 3
  if nbSectors = 0 then ideAtapiCmdOk cmd s
  else
    let request := s.ioBuffer 9 &&& 0xf8
    if request = 0x00 then ideAtapiCmdOk cmd s
    else if request = 0x10 then ideAtapiCmdReadPio cmd s s.packetLba nbSectors 2048
    else if request = 0xf8 then ideAtapiCmdReadPio cmd s s.packetLba nbSectors 2352
    else errorCmd cmd s

/-- `bs->get_sector_count(bs) >> 2` as a 64-bit number; a drive without a medium reports it. -/
def withMedium (cmd : UInt8) (s : IDEState) (k : Nat → IdeProg IDEState) : IdeProg IDEState :=
  .ask (.getSectorCount s.bs) fun (count : Int) =>
    let total := (count % 2 ^ 64).toNat / 4
    if total = 0 then ideAtapiCmdError cmd s senseNotReady ascMediumNotPresent else k total

def atapiSeek (cmd : UInt8) (s : IDEState) : IdeProg IDEState :=
  withMedium cmd s fun total =>
    if s.beAt 2 4 ≥ total then ideAtapiCmdError cmd s senseIllegalRequest ascLogicalBlockOor
    else ideAtapiCmdOk cmd s

def atapiMechanismStatus (cmd : UInt8) (s : IDEState) : IdeProg IDEState :=
  ideAtapiCmdReply cmd (s.put 0 [0, 0, 0, 0, 0, 1, 0, 0]) 8 (s.beAt 8 2)

def atapiReadToc (cmd : UInt8) (s : IDEState) : IdeProg IDEState :=
  withMedium cmd s fun total =>
    let maxLen := s.beAt 7 2
    let format := (s.ioBuffer 9).toNat / 64
    let msf := (s.ioBuffer 1 >>> 1) &&& 1 ≠ 0
    if format = 0 then
      match cdromReadToc (int32 total) msf (s.ioBuffer 6) with
      | none => errorCmd cmd s
      | some toc => ideAtapiCmdReply cmd (s.put 0 toc) toc.length maxLen
    else if format = 1 then
      ideAtapiCmdReply cmd (s.put 0 [0, 0x0a, 0x01, 0x01, 0, 0, 0, 0, 0, 0, 0, 0]) 12 maxLen
    else if format = 2 then
      let toc := cdromReadTocRaw (int32 total) msf
      ideAtapiCmdReply cmd (s.put 0 toc) toc.length maxLen
    else errorCmd cmd s

def atapiReadCapacity (cmd : UInt8) (s : IDEState) : IdeProg IDEState :=
  withMedium cmd s fun total =>
    ideAtapiCmdReply cmd (s.put 0 (beBytes 4 (total - 1) ++ beBytes 4 2048)) 8 8

def inquiryData : List UInt8 :=
  [0x05, 0x80, 0x00, 0x21, 31, 0, 0, 0] ++ padstr8 8 (chars "TINY386") ++
    padstr8 16 (chars "TINY386 CD-ROM") ++ padstr8 4 (chars "0.1")

def atapiInquiry (cmd : UInt8) (s : IDEState) : IdeProg IDEState :=
  ideAtapiCmdReply cmd (s.put 0 inquiryData) 36 (s.ioBuffer 4).toNat

def ideAtapiSetProfile (s : IDEState) (index profile : Nat) : IDEState :=
  let pos := 12 + index * 4
  let s := s.put pos (beBytes 2 profile)
  let current := s.ioBuffer pos = s.ioBuffer 6 ∧ s.ioBuffer (pos + 1) = s.ioBuffer 7
  let s := s.put (pos + 2) [if current then 1 else 0]
  s.put 11 [s.ioBuffer 11 + 4]

/-- Clearing the buffer stops at the allocation length, so a short one leaves bytes of the packet
in the answer. -/
def configurationData (s : IDEState) (maxLen : Nat) : IDEState :=
  let s := s.put 0 (List.replicate maxLen 0)
  let s := if mediaIsDvd s then s.put 6 (beBytes 2 mmcProfileDvdRom)
    else if mediaIsCd s then s.put 6 (beBytes 2 mmcProfileCdRom) else s
  let s := s.put 10 [0x02 ||| 0x01]
  let s := ideAtapiSetProfile s 0 mmcProfileDvdRom
  let s := ideAtapiSetProfile s 1 mmcProfileCdRom
  s.put 0 (beBytes 4 (20 - 4))

def atapiGetConfiguration (cmd : UInt8) (s : IDEState) : IdeProg IDEState :=
  if s.ioBuffer 2 ≠ 0 ∨ s.ioBuffer 3 ≠ 0 then errorCmd cmd s
  else
    let maxLen := min (s.beAt 7 2) 512
    ideAtapiCmdReply cmd (configurationData s maxLen) 20 maxLen

def atapiDispatch (cmd : UInt8) (s : IDEState) : IdeProg IDEState :=
  let op := s.ioBuffer 0
  if op = gpcmdTestUnitReady then atapiTestUnitReady cmd s
  else if op = gpcmdModeSense6 ∨ op = gpcmdModeSense10 then atapiModeSense cmd s
  else if op = gpcmdRequestSense then atapiRequestSense cmd s
  else if op = gpcmdPreventAllowMediumRemoval then ideAtapiCmdOk cmd s
  else if op = gpcmdRead10 ∨ op = gpcmdRead12 then atapiRead cmd s
  else if op = gpcmdReadCd then atapiReadCd cmd s
  else if op = gpcmdSeek then atapiSeek cmd s
  else if op = gpcmdStartStopUnit then ideAtapiCmdOk cmd s
  else if op = gpcmdMechanismStatus then atapiMechanismStatus cmd s
  else if op = gpcmdReadTocPmaAtip then atapiReadToc cmd s
  else if op = gpcmdReadCdvdCapacity then atapiReadCapacity cmd s
  else if op = gpcmdSetSpeed then ideAtapiCmdOk cmd s
  else if op = gpcmdInquiry then atapiInquiry cmd s
  else if op = gpcmdGetConfiguration then atapiGetConfiguration cmd s
  else ideAtapiCmdError cmd s senseIllegalRequest ascIllegalOpcode

/-- While unit attention is pending only REQUEST SENSE and INQUIRY complete. -/
def ideAtapiCmd (cmd : UInt8) (s : IDEState) : IdeProg IDEState :=
  let s := s.access 0 atapiPacketSize s.bufSize
  if s.senseKey = senseUnitAttention ∧ s.ioBuffer 0 ≠ gpcmdRequestSense ∧
      s.ioBuffer 0 ≠ gpcmdInquiry then ideAtapiCmdCheckStatus cmd s
  else atapiDispatch cmd s

def winDeviceReset : UInt8 := 0x08
def winPacketcmd : UInt8 := 0xa0
def winPidentify : UInt8 := 0xa1

def idecdExecCmd (cmd : UInt8) (s : IDEState) (val : UInt8) : IdeProg IDEState :=
  if val = winDeviceReset then .ret { ideSetSignature s with status := 0x00 }
  else if val = winPacketcmd then
    let s := { s with status := readyStat ||| seekStat, nsector := 1 }
    (ideTransferStart2 s 0 atapiPacketSize .atapiCmd).interrupt cmd
  else if val = winPidentify then
    let s := { ideAtapiIdentify s with status := readyStat ||| seekStat }
    (ideTransferStart2 s 0 512 .transferStop2).interrupt cmd
  else if val = winIdentify ∨ val = winRead then
    (ideAbortCommand (ideSetSignature s)).interrupt cmd
  else (ideAbortCommand s).interrupt cmd

end Winspire.Ide
