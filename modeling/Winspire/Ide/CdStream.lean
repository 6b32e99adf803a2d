import Winspire.Ide.Transfer
import Winspire.Ide.AtapiBounds

/-!
# Streams of the CD drive

A READ packet and the words a guest takes while DRQ is set. Positions and lengths are counted in
words: a block of the medium has 1024 of them, and every chunk the drive hands out is even.
-/

namespace Winspire.Ide

open Interaction

set_option autoImplicit false

/-- The byte count registers: the limit of the guest, then what a phase announces. -/
def IDEState.byteCount (s : IDEState) : Nat := s.lcyl.toNat ||| s.hcyl.toNat <<< 8

/-- Bytes the elementary transfer has still to deliver. -/
def IDEState.phaseLeft (s : IDEState) : Int := s.elementaryTransferSize + (s.dataEnd - s.dataIndex)

def IDEIFState.byteCount (s1 : IDEIFState) : Nat := (s1.curDrive.map IDEState.byteCount).getD 0

/-- The next word is the last of an elementary transfer. -/
def IDEIFState.phaseEnds (s1 : IDEIFState) : Bool :=
  (s1.curDrive.map fun s => decide (s.phaseLeft ≤ 2)).getD true

/-- The words of one elementary transfer, read while DRQ is set. -/
def readPhase : Nat → IDEIFState → IdeProg (Option (IDEIFState × List UInt32))
  | 0, _ => .ret none
  | fuel + 1, s1 =>
    if drqSet s1 then do
      let (s1', word) ← ideDataReadw s1
      if s1.phaseEnds then return some (s1', [word])
      else
        let rest ← readPhase fuel s1'
        return rest.map fun (s1, words) => (s1, word :: words)
    else .ret none

/-- What each phase announces and what it delivers, until DRQ is clear. -/
def readPhases : Nat → IDEIFState → IdeProg (Option (IDEIFState × List (Nat × List UInt32)))
  | fuel, s1 =>
    if drqSet s1 then
      match fuel with
      | 0 => .ret none
      | fuel + 1 => do
        match ← readPhase 32768 s1 with
        | none => return none
        | some (s1', words) =>
          let rest ← readPhases fuel s1'
          return rest.map fun (s, phases) => (s, (s1.byteCount, words) :: phases)
    else .ret (some (s1, []))

/-- The byte count limit, the PACKET command and the six words of the packet. -/
def packetCommand (packet : Nat → UInt8) (limit : Nat) (s1 : IDEIFState) : IdeProg IDEIFState := do
  let s1 ← ideIoportWrite s1 4 (.ofNat (limit % 256))
  let s1 ← ideIoportWrite s1 5 (.ofNat (limit / 256))
  let s1 ← ideIoportWrite s1 7 winPacketcmd.toUInt32
  writeElems .word packet 6 0 s1

/-- READ(10) or READ(12) of `n` blocks from block `lba` on. -/
structure ReadPacket (packet : Nat → UInt8) (lba n : Nat) : Prop where
  address : LittleEndian.get (slice packet 2 4).reverse = lba
  count : packet 0 = gpcmdRead10 ∧ LittleEndian.get (slice packet 7 2).reverse = n ∨
    packet 0 = gpcmdRead12 ∧ LittleEndian.get (slice packet 6 4).reverse = n

theorem byteCount_eq (s : IDEState) : s.byteCount = s.lcyl.toNat + 256 * s.hcyl.toNat := by
  have hl := s.lcyl.toNat_lt
  have hor := Nat.shiftLeft_add_eq_or_of_lt (i := 8) (b := s.lcyl.toNat) (by omega) s.hcyl.toNat
  unfold IDEState.byteCount
  rw [Nat.or_comm, ← hor, Nat.shiftLeft_eq]
  omega

theorem byteCount_byteOf (s : IDEState) {size : Int} (hlo : 0 ≤ size) (hhi : size < 65536)
    (hl : s.lcyl = byteOf size) (hh : s.hcyl = byteOf (size / 256)) : (s.byteCount : Int) = size := by
  rw [byteCount_eq, hl, hh, toNat_byteOf, toNat_byteOf]
  omega

/-- An even size below the limit, unless the packet ends earlier. -/
theorem limitedSize_words {s : IDEState} {p : Nat} (hp : 0 < p)
    (hpacket : s.packetTransferSize = (2 * p : Nat)) (hlimit : 2 ≤ s.byteCount) :
    ∃ z : Nat, s.limitedSize = (2 * z : Nat) ∧ 0 < z ∧ z ≤ p ∧ 2 * z ≤ s.byteCount ∧
      2 * z < 65536 := by
  have hb : s.byteCount < 65536 := by
    have hl := s.lcyl.toNat_lt
    have hh := s.hcyl.toNat_lt
    rw [byteCount_eq]
    omega
  have hsize : s.limitedSize =
      if s.packetTransferSize > ((if s.byteCount = 0xffff then s.byteCount - 1 else s.byteCount : Nat) : Int)
      then (((if (if s.byteCount = 0xffff then s.byteCount - 1 else s.byteCount) % 2 = 1
        then (if s.byteCount = 0xffff then s.byteCount - 1 else s.byteCount) - 1
        else (if s.byteCount = 0xffff then s.byteCount - 1 else s.byteCount)) : Nat) : Int)
      else s.packetTransferSize := rfl
  rw [hsize, hpacket]
  have hl : (if s.byteCount = 0xffff then s.byteCount - 1 else s.byteCount) ≤ s.byteCount ∧
      2 ≤ (if s.byteCount = 0xffff then s.byteCount - 1 else s.byteCount) := by
    split <;> omega
  generalize (if s.byteCount = 0xffff then s.byteCount - 1 else s.byteCount) = l at hl
  by_cases hgt : ((2 * p : Nat) : Int) > l
  · rw [if_pos hgt]
    by_cases hodd : l % 2 = 1
    · rw [if_pos hodd]
      exact ⟨l / 2, by omega, by omega, by omega, by omega, by omega⟩
    · rw [if_neg hodd]
      exact ⟨l / 2, by omega, by omega, by omega, by omega, by omega⟩
  · rw [if_neg hgt]
    exact ⟨p, rfl, hp, Nat.le_refl _, by omega, by omega⟩

theorem int32_block {block : Nat} (h : block ≤ 2 ^ 31) : int32 block ≠ -1 := by
  unfold int32
  rw [BitVec.toInt_ofInt]
  simp only [Int.bmod]
  split <;> omega

theorem int32_of_lt {y : Nat} (h : y < 2 ^ 31) : int32 y = y := int32_eq (by omega) (by omega)

/-- What does not change while a READ goes on: the device, the size of a block, the end of the
extent and a limit the registers keep to. -/
structure Extent where
  bs : Bool
  medium : Nat → UInt8
  last : Nat
  limit : Nat
  last_le : last ≤ 2 ^ 31

/-- `block` is the next one the drive will read, word `i` the next of the block in the buffer, and
`p` words of the packet and `e` of the elementary transfer have not been handed out. -/
structure Counted (x : Extent) (s : IDEState) (block i p e : Nat) : Prop where
  device : s.bs = x.bs
  sectorSize : s.cdSectorSize = 2048
  lba : s.lba = int32 block
  block_le : block ≤ x.last
  block_pos : i < 1024 → 1 ≤ block
  index : s.ioBufferIndex = (2 * i : Nat)
  index_le : i ≤ 1024
  packet : s.packetTransferSize = (2 * p : Nat)
  elementary : s.elementaryTransferSize = (2 * e : Nat)
  elementary_le : e ≤ p
  extent : 1024 * block + i + p = 1024 * x.last + 1024
  limit_pos : 2 ≤ s.byteCount
  limit_le : s.byteCount ≤ x.limit

/-- The buffer holds the block before `block` from word `a` on. -/
def Held (x : Extent) (s : IDEState) (block a : Nat) : Prop :=
  ∀ j, 2 * a ≤ j → j < 2048 → s.ioBuffer j = x.medium (2048 * block - 2048 + j)

/-- `ide_atapi_cmd_reply_end` is called. -/
structure AtReply (x : Extent) (s : IDEState) (block i p e : Nat) : Prop
    extends Counted x s block i p e where
  held : Held x s block i
  phase_le : 2 * e ≤ s.byteCount
  status : s.status = readyStat ||| seekStat ∨ s.status = busyWithData

/-- A chunk is on offer: words `a` to `i` of the block in the buffer. -/
structure Chunk (x : Extent) (s : IDEState) (block a i p e : Nat) : Prop
    extends Counted x s block i p e where
  loaded : 1 ≤ block
  held : Held x s block a
  phase_le : 2 * (e + (i - a)) ≤ s.byteCount
  status : s.status = busyWithData
  start_lt : a < i
  start : s.dataIndex = (2 * a : Nat)
  stop : s.dataEnd = (2 * i : Nat)
  func : s.endTransferFunc = .atapiCmdReplyEnd

section Reply

variable {x : Extent} {s : IDEState} {block a i p e size : Nat} {cmd : UInt8} {d : Nat → UInt8}

theorem chunk_replyChunk (h : AtReply x s block i p e) {c : Nat} (hc : 0 < c) (hce : c ≤ e)
    (hci : i + c ≤ 1024) : Chunk x (s.replyChunk (2 * c : Nat)) block i (i + c) (p - c) (e - c) where
  device := h.device
  sectorSize := h.sectorSize
  lba := h.lba
  block_le := h.block_le
  block_pos _ := h.block_pos (by omega)
  index := by
    have hi := h.index
    simp only [IDEState.replyChunk, ideTransferStart2]
    omega
  index_le := hci
  packet := by
    have hp := h.packet
    have hle := h.elementary_le
    simp only [IDEState.replyChunk, ideTransferStart2]
    omega
  elementary := by
    have he := h.elementary
    simp only [IDEState.replyChunk, ideTransferStart2]
    omega
  elementary_le := Nat.sub_le_sub_right h.elementary_le c
  extent := by
    have hx := h.extent
    have hle := h.elementary_le
    omega
  limit_pos := h.limit_pos
  limit_le := h.limit_le
  loaded := h.block_pos (by omega)
  held := h.held
  phase_le := by
    have hp : 2 * e ≤ (s.replyChunk (2 * c : Nat)).byteCount := h.phase_le
    omega
  status := by
    simp only [IDEState.replyChunk, ideTransferStart2]
    rcases h.status with hs | hs <;> rw [hs] <;> rfl
  start_lt := by omega
  start := h.index
  stop := by
    have hi := h.index
    simp only [IDEState.replyChunk, ideTransferStart2]
    omega
  func := rfl

/-- The next chunk is on offer. It belongs to the elementary transfer or starts a new one, which the
registers announce. -/
def Resumes (x : Extent) (s' : IDEState) (block i p e : Nat) : Prop :=
  ∃ c, 0 < c ∧ c ≤ p ∧ ∃ e', Chunk x s' block i (i + c) (p - c) e' ∧
    (0 < e → e' + c = e) ∧ (e = 0 → 2 * (e' + c) = s'.byteCount)

theorem wp_replyNext (h : AtReply x s block i p e) (hi : i < 1024) (hp : 0 < p) :
    wp (diskHost x.bs size) (ideAtapiReplyNext cmd s)
      (fun s' d' => d' = d ∧ Resumes x s' block i p e) d := by
  have hidx := h.index
  have hsize := h.sectorSize
  have helem := h.elementary
  have hle := h.elementary_le
  unfold ideAtapiReplyNext
  by_cases he : 0 < e
  · rw [if_pos (by omega)]
    have hmin : min (s.cdSectorSize - s.ioBufferIndex) s.elementaryTransferSize =
        (2 * min (1024 - i) e : Nat) := by omega
    rw [hmin]
    refine ⟨rfl, min (1024 - i) e, by omega, by omega, e - min (1024 - i) e, ?_, ?_, ?_⟩
    · exact chunk_replyChunk h (by omega) (by omega) (by omega)
    · intro _
      omega
    · intro hz
      omega
  · rw [if_neg (by omega)]
    obtain ⟨z, hz, hzpos, hzp, hzb, hzlt⟩ := limitedSize_words hp h.packet h.limit_pos
    have hne : s.lba ≠ -1 := by
      rw [h.lba]
      exact int32_block (Nat.le_trans h.block_le x.last_le)
    simp only [hz]
    rw [if_pos hne]
    have hmin : min ((2 * z : Nat) : Int) (s.cdSectorSize - s.ioBufferIndex) =
        (2 * min z (1024 - i) : Nat) := by omega
    rw [hmin]
    generalize ht : ({ s with
      nsector := (s.nsector &&& ~~~7) ||| atapiIntReasonIo
      lcyl := byteOf ((2 * z : Nat) : Int)
      hcyl := byteOf (((2 * z : Nat) : Int) / 256)
      elementaryTransferSize := ((2 * z : Nat) : Int) } : IDEState) = t
    have hcount : t.byteCount = 2 * z := by
      have hb := @byteCount_byteOf t (2 * z : Nat) (by omega) (by omega) (by rw [← ht])
        (by rw [← ht])
      omega
    have hat : AtReply x t block i p z := by
      have hlimit := h.limit_le
      refine ⟨⟨?_, ?_, ?_, h.block_le, h.block_pos, ?_, h.index_le, ?_, ?_, hzp, h.extent, ?_, ?_⟩,
        ?_, ?_, ?_⟩
      · rw [← ht]
        exact h.device
      · rw [← ht]
        exact h.sectorSize
      · rw [← ht]
        exact h.lba
      · rw [← ht]
        exact h.index
      · rw [← ht]
        exact h.packet
      · rw [← ht]
      · omega
      · omega
      · rw [← ht]
        exact h.held
      · omega
      · rw [← ht]
        exact h.status
    apply wp_afterIrq
    refine ⟨rfl, min z (1024 - i), by omega, by omega, z - min z (1024 - i), ?_, ?_, ?_⟩
    · exact chunk_replyChunk hat (by omega) (by omega) (by omega)
    · intro hpos
      exact absurd hpos he
    · intro _
      have hb : (t.replyChunk (2 * min z (1024 - i) : Nat)).byteCount = t.byteCount := rfl
      rw [hb, hcount]
      omega

/-- `bytes` read into the front of the buffer. -/
def IDEState.filled (s : IDEState) (bytes : List UInt8) : IDEState :=
  (s.access 0 (512 * 4) s.bufSize).put 0 bytes

/-- The block in the buffer, to be handed out from its start. -/
def IDEState.loaded (s : IDEState) (bytes : List UInt8) (next : Int) : IDEState :=
  { s.filled bytes with lba := next, ioBufferIndex := 0 }

theorem ioBuffer_loaded (s : IDEState) (bytes : List UInt8) (next : Int) :
    (s.loaded bytes next).ioBuffer = blit s.ioBuffer 0 bytes := rfl

/-- Reading a block leaves the registers and the counters alone. -/
structure SameTransfer (t s : IDEState) : Prop where
  device : t.bs = s.bs
  sectorSize : t.cdSectorSize = s.cdSectorSize
  packet : t.packetTransferSize = s.packetTransferSize
  elementary : t.elementaryTransferSize = s.elementaryTransferSize
  count : t.byteCount = s.byteCount
  status : t.status = s.status

theorem sameTransfer_loaded (s : IDEState) (bytes : List UInt8) (next : Int) :
    SameTransfer (s.loaded bytes next) s := by
  constructor <;> simp only [IDEState.loaded, IDEState.filled, IDEState.put, IDEState.access,
    IDEState.byteCount]

theorem lba_filled (s : IDEState) (bytes : List UInt8) : (s.filled bytes).lba = s.lba := by
  simp only [IDEState.filled, IDEState.put, IDEState.access]

theorem wp_cdReadSector {k : Int × IDEState → IdeProg IDEState} {Q : IDEState → (Nat → UInt8) → Prop}
    (hbs : s.bs = x.bs) (hlba : s.lba = int32 block) (hlt : block < 2 ^ 31)
    (hin : 4 * (block + 1) ≤ size)
    (hk : ∀ bytes, bytes = slice d (2048 * block) 2048 →
      wp (diskHost x.bs size) (k (0, s.filled bytes)) Q d) :
    wp (diskHost x.bs size) (cdReadSector s s.lba 2048 >>= k) Q d := by
  have hnum : (UInt64.ofInt (s.lba * 4)).toNat = 4 * block := by
    rw [hlba, int32_of_lt hlt, UInt64.ofInt, UInt64.toNat_ofNat']
    omega
  unfold cdReadSector
  rw [if_pos rfl, Prog.ask_bind]
  rintro ⟨ret, bytes⟩ d' hd
  have hserved : (ret, bytes) = (0, slice d (512 * (UInt64.ofInt (s.lba * 4)).toNat) (512 * 4)) ∧
      d' = d := hd hbs (by rw [hnum]; omega)
  rw [hnum, show 512 * (4 * block) = 2048 * block by omega, Prod.mk.injEq] at hserved
  have hret := hserved.1.1
  have hd' := hserved.2
  subst hret hd'
  exact hk bytes hserved.1.2

theorem AtReply.loaded (h : AtReply x s block 1024 p e) (hp : 0 < p) {bytes : List UInt8}
    (hbytes : bytes = slice x.medium (2048 * block) 2048) {next : Int}
    (hnext : next = int32 (block + 1 : Nat)) :
    AtReply x (s.loaded bytes next) (block + 1) 0 p e := by
  have hext := h.extent
  have hsame := sameTransfer_loaded s bytes next
  have hheld : Held x (s.loaded bytes next) (block + 1) 0 := by
    intro j _ hj
    rw [ioBuffer_loaded, hbytes, blit_slice_apply, if_pos (by omega)]
    exact congrArg x.medium (by omega)
  exact {
    device := hsame.device.trans h.device
    sectorSize := hsame.sectorSize.trans h.sectorSize
    lba := hnext
    block_le := by omega
    block_pos := fun _ => by omega
    index := rfl
    index_le := by omega
    packet := hsame.packet.trans h.packet
    elementary := hsame.elementary.trans h.elementary
    elementary_le := h.elementary_le
    extent := by omega
    limit_pos := by
      rw [hsame.count]
      exact h.limit_pos
    limit_le := by
      rw [hsame.count]
      exact h.limit_le
    held := hheld
    phase_le := by
      rw [hsame.count]
      exact h.phase_le
    status := by
      rw [hsame.status]
      exact h.status }

/-- There are words left: the drive reads a block if the buffer is used up, and hands out a chunk. -/
theorem wp_replyEnd (h : AtReply x s block i p e) (hp : 0 < p) (hin : 4 * x.last ≤ size)
    (hd : d = x.medium) :
    wp (diskHost x.bs size) (ideAtapiCmdReplyEnd cmd s) (fun s' d' => d' = d ∧
      ∃ block' a, 1024 * block' + a = 1024 * block + i ∧ Resumes x s' block' a p e) d := by
  have hidx := h.index
  have hle := h.index_le
  have hext := h.extent
  have hlast := x.last_le
  have hpacket := h.packet
  have hsector := h.sectorSize
  unfold ideAtapiCmdReplyEnd
  rw [if_neg (by omega)]
  by_cases hi : i < 1024
  · rw [if_neg (by omega)]
    refine wp_mono (wp_replyNext h hi hp) ?_
    rintro s' d' ⟨hd', hres⟩
    exact ⟨hd', block, i, rfl, hres⟩
  · obtain rfl : i = 1024 := by omega
    have hne : s.lba ≠ -1 := by
      rw [h.lba]
      exact int32_block (Nat.le_trans h.block_le hlast)
    rw [if_pos ⟨hne, by omega⟩, hsector]
    apply wp_cdReadSector h.device h.lba (by omega) (by omega)
    intro bytes hbytes
    rw [hd] at hbytes
    simp only
    rw [if_neg (by decide)]
    have hlba : int32 ((s.filled bytes).lba + 1) = int32 (block + 1 : Nat) := by
      rw [lba_filled, h.lba, int32_of_lt (by omega), Nat.cast_add, Nat.cast_one]
    refine wp_mono (wp_replyNext (h.loaded hp hbytes hlba) (by omega) hp) ?_
    rintro s' d' ⟨hd', hres⟩
    exact ⟨hd', block + 1, 0, by omega, hres⟩

theorem wp_replyEnd_done (h : AtReply x s block i 0 e) :
    wp (diskHost x.bs size) (ideAtapiCmdReplyEnd cmd s)
      (fun s' d' => d' = d ∧ s'.status = readyStat ||| seekStat) d := by
  have hpacket := h.packet
  unfold ideAtapiCmdReplyEnd
  rw [if_pos (by omega)]
  apply wp_afterIrq
  exact ⟨rfl, rfl⟩

end Reply

/-- A chunk is on offer: its first word is word `pos` of the medium, `w` words of the packet are
left and `v` of the elementary transfer. -/
structure Streaming (x : Extent) (s : IDEState) (pos w v : Nat) : Prop where
  chunk : ∃ block a i p e, Chunk x s block a i p e ∧ pos + 1024 = 1024 * block + a ∧
    w = i - a + p ∧ v = i - a + e

theorem Streaming.phase_pos {x : Extent} {s : IDEState} {pos w v : Nat} (h : Streaming x s pos w v) :
    0 < v ∧ v ≤ w ∧ 2 * v ≤ x.limit ∧ s.status = busyWithData ∧ s.phaseLeft = (2 * v : Nat) := by
  obtain ⟨block, a, i, p, e, hc, -, rfl, rfl⟩ := h.chunk
  have hlt := hc.start_lt
  have hle := hc.elementary_le
  have hphase := hc.phase_le
  have hlimit := hc.limit_le
  refine ⟨by omega, by omega, by omega, hc.status, ?_⟩
  unfold IDEState.phaseLeft
  rw [hc.elementary, hc.stop, hc.start]
  omega

/-- After a word: the command is finished, or its stream goes on, in the same elementary transfer or
at the start of one that is announced. -/
structure WordPost (x : Extent) (pos w v : Nat) (s' : IDEState) : Prop where
  finished : w = 1 → s'.status = readyStat ||| seekStat
  streams : 1 < w → ∃ v', Streaming x s' (pos + 1) (w - 1) v' ∧ (1 < v → v' = v - 1) ∧
    (v = 1 → 2 * v' = s'.byteCount)

section Words

variable {x : Extent} {s : IDEState} {s1 : IDEIFState} {block a i p e pos w v size : Nat}

def IDEState.tookWord (s : IDEState) : IDEState := (s.portAccess 2).moved 2

theorem sameTransfer_tookWord (s : IDEState) : SameTransfer s.tookWord s := by
  constructor <;> simp only [IDEState.tookWord, IDEState.moved, IDEState.portAccess, IDEState.access,
    IDEState.byteCount]

theorem counted_tookWord (h : Counted x s block i p e) : Counted x s.tookWord block i p e := by
  have hsame := sameTransfer_tookWord s
  have hlba : s.tookWord.lba = s.lba := by
    simp only [IDEState.tookWord, IDEState.moved, IDEState.portAccess, IDEState.access]
  have hindex : s.tookWord.ioBufferIndex = s.ioBufferIndex := by
    simp only [IDEState.tookWord, IDEState.moved, IDEState.portAccess, IDEState.access]
  exact {
    device := hsame.device.trans h.device
    sectorSize := hsame.sectorSize.trans h.sectorSize
    lba := hlba.trans h.lba
    block_le := h.block_le
    block_pos := h.block_pos
    index := hindex.trans h.index
    index_le := h.index_le
    packet := hsame.packet.trans h.packet
    elementary := hsame.elementary.trans h.elementary
    elementary_le := h.elementary_le
    extent := h.extent
    limit_pos := by
      rw [hsame.count]
      exact h.limit_pos
    limit_le := by
      rw [hsame.count]
      exact h.limit_le }

theorem ioBuffer_tookWord (s : IDEState) : s.tookWord.ioBuffer = s.ioBuffer := by
  simp only [IDEState.tookWord, IDEState.moved, IDEState.portAccess, IDEState.access]

theorem port_tookWord (s : IDEState) : s.tookWord.dataIndex = s.dataIndex + 2 ∧
    s.tookWord.dataEnd = s.dataEnd ∧ s.tookWord.endTransferFunc = s.endTransferFunc := by
  simp only [IDEState.tookWord, IDEState.moved, IDEState.portAccess, IDEState.access, and_self]

theorem Chunk.tookWord (h : Chunk x s block a i p e) (hlt : a + 1 < i) :
    Chunk x s.tookWord block (a + 1) i p e := by
  have hsame := sameTransfer_tookWord s
  have hport := port_tookWord s
  have hstart := h.start
  have hphase := h.phase_le
  refine { counted_tookWord h.toCounted with
    loaded := h.loaded, held := ?_, phase_le := ?_, status := hsame.status.trans h.status,
    start_lt := hlt, start := ?_, stop := hport.2.1.trans h.stop, func := hport.2.2.trans h.func }
  · intro j hj hlt'
    rw [ioBuffer_tookWord]
    exact h.held j (by omega) hlt'
  · rw [hsame.count]
    omega
  · rw [hport.1]
    omega

theorem Chunk.atReply (h : Chunk x s block a i p e) : AtReply x s.tookWord block i p e := by
  have hsame := sameTransfer_tookWord s
  have hlt := h.start_lt
  have hphase := h.phase_le
  refine { counted_tookWord h.toCounted with held := ?_, phase_le := ?_, status := ?_ }
  · intro j hj hlt'
    rw [ioBuffer_tookWord]
    exact h.held j (by omega) hlt'
  · rw [hsame.count]
    omega
  · exact Or.inr (hsame.status.trans h.status)

theorem wp_tookWord_finish (h : Chunk x s block a i p e) (cmd : UInt8)
    (hin : 4 * x.last ≤ size) :
    wp (diskHost x.bs size) (s.tookWord.finish cmd) (fun s' d' => d' = x.medium ∧
      WordPost x (1024 * block + a - 1024) (i - a + p) (i - a + e) s') x.medium := by
  have hport := port_tookWord s
  have hstart := h.start
  have hstop := h.stop
  have hlt := h.start_lt
  have hle := h.elementary_le
  have hile := h.index_le
  have hblock := h.loaded
  by_cases hmore : a + 1 < i
  · rw [finish_of_lt (by rw [hport.1, hport.2.1]; omega)]
    refine ⟨rfl, by omega, ?_⟩
    intro _
    refine ⟨i - (a + 1) + e, ⟨block, a + 1, i, p, e, h.tookWord hmore, ?_, ?_, rfl⟩, ?_, ?_⟩
    all_goals omega
  · obtain rfl : i = a + 1 := by omega
    rw [finish_end (by rw [hport.1, hport.2.1]; omega), endTransfer, hport.2.2, h.func]
    intro _ d' hd'
    rw [show d' = x.medium from hd']
    simp only
    by_cases hp : 0 < p
    · refine wp_mono (wp_replyEnd h.atReply hp hin rfl) ?_
      rintro s' d'' ⟨hd'', block', a', hpos, c, hc, hcp, e', hchunk, hsame, hnew⟩
      refine ⟨hd'', by omega, ?_⟩
      intro _
      refine ⟨c + e', ⟨block', a', a' + c, p - c, e', hchunk, ?_, ?_, ?_⟩, ?_, ?_⟩
      · omega
      · omega
      · omega
      · intro hv
        have := hsame (by omega)
        omega
      · intro hv
        have := hnew (by omega)
        omega
    · obtain rfl : p = 0 := by omega
      refine wp_mono (wp_replyEnd_done h.atReply) ?_
      rintro s' d'' ⟨hd'', hstatus⟩
      exact ⟨hd'', fun _ => hstatus, fun hw => by omega⟩

theorem Chunk.bytes (h : Chunk x s block a i p e) :
    s.portBytes 2 = slice x.medium (2 * (1024 * block + a - 1024)) 2 := by
  have hile := h.index_le
  have hlt := h.start_lt
  have hblock := h.loaded
  unfold IDEState.portBytes
  rw [h.start, Int.toNat_natCast]
  apply List.map_congr_left
  intro j hj
  have hj' := List.mem_range.mp hj
  rw [h.held (2 * a + j) (by omega) (by omega)]
  exact congrArg x.medium (by omega)

/-- A word of the medium, and what the drive makes of its being taken. -/
theorem wp_readWord (hs : s1.curDrive = some s) (h : Streaming x s pos w v)
    (hin : 4 * x.last ≤ size) :
    wp (diskHost x.bs size) (ideDataReadw s1) (fun r d' => d' = x.medium ∧
      LittleEndian.put 2 r.2.toNat = slice x.medium (2 * pos) 2 ∧
      ∃ s', r.1.curDrive = some s' ∧ WordPost x pos w v s') x.medium := by
  obtain ⟨block, a, i, p, e, hc, hpos, rfl, rfl⟩ := h.chunk
  have hlt := hc.start_lt
  have hstart := hc.start
  have hstop := hc.stop
  have hile := hc.index_le
  have hread : ideDataReadw s1 = _ := ideDataReadElem_fits (w := .word) (by decide) hs
    (by rw [hstart, hstop]; simp only [Width.bytes]; omega)
  rw [hread, wp_bind]
  refine wp_mono (wp_tookWord_finish hc s1.cmd hin) ?_
  rintro s' d' ⟨hd', hpost⟩
  refine ⟨hd', ?_, s', curDrive_setCur hs s', ?_⟩
  · have hbytes := hc.bytes
    rw [show 1024 * block + a - 1024 = pos by omega] at hbytes
    rw [← hbytes]
    exact put_ofNat_get (w := .word) (length_slice _ _ _)
  · rw [show 1024 * block + a - 1024 = pos by omega] at hpost
    exact hpost

end Words

end Winspire.Ide
