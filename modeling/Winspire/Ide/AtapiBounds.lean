import Winspire.Ide.Bounds

/-!
# The bounds of packet commands

Answers are short and start at the front of the buffer. A READ hands out one sector at a time,
unless its LBA is the mark of an answer.
-/

namespace Winspire.Ide

open Interaction

set_option autoImplicit false

variable {clean : Prop}

theorem int32_range (x : Int) : -2 ^ 31 ≤ int32 x ∧ int32 x < 2 ^ 31 := by
  unfold int32
  rw [BitVec.toInt_ofInt]
  simp only [Int.bmod]
  split <;> omega

theorem int32_succ_ne {x : Int} (h : 0 ≤ x) (hlt : x < 2 ^ 31) : int32 (x + 1) ≠ -1 := by
  unfold int32
  rw [BitVec.toInt_ofInt]
  simp only [Int.bmod]
  split <;> omega

/-- A negative LBA becomes a sector number that no device has. -/
theorem lba_nonneg {lba : Int} (hlo : -2 ^ 31 ≤ lba)
    (h : (UInt64.ofInt (lba * 4)).toNat + 4 ≤ 2 ^ 63) : 0 ≤ lba := by
  rw [UInt64.ofInt, UInt64.toNat_ofNat'] at h
  omega

/-- The sectors a READ packet asks for, and their size. -/
def IDEState.readPacket (s : IDEState) : Option (Int × Int) :=
  if s.ioBuffer 0 = gpcmdRead10 then some (s.beAt 7 2, 2048)
  else if s.ioBuffer 0 = gpcmdRead12 then some (int32 (s.beAt 6 4), 2048)
  else if s.ioBuffer 0 = gpcmdReadCd then
    let request := s.ioBuffer 9 &&& 0xf8
    if request = 0x10 then some (s.beAt 6 3, 2048)
    else if request = 0xf8 then some (s.beAt 6 3, 2352)
    else none
  else none

/-- Sectors that are taken for an answer, and leave the buffer. -/
def IDEState.overrun (s : IDEState) (lba nbSectors sectorSize : Int) : Prop :=
  lba = -1 ∧ 0 < int32 (nbSectors * sectorSize) ∧
    s.bufSize < sectorSize + int32 (nbSectors * sectorSize)

instance (s : IDEState) (lba nbSectors sectorSize : Int) :
    Decidable (s.overrun lba nbSectors sectorSize) :=
  inferInstanceAs (Decidable (_ ∧ _ ∧ _))

/-- The packet in the buffer is a READ whose LBA field is 0xffffffff. -/
def IDEState.wildRead (s : IDEState) : Prop :=
  s.senseKey ≠ senseUnitAttention ∧
    ∃ r ∈ s.readPacket, s.overrun s.packetLba r.1 r.2

section Reply
variable {s : IDEState} {cmd : UInt8}

theorem limitedSize_range (h : 0 < s.packetTransferSize) :
    0 ≤ s.limitedSize ∧ s.limitedSize ≤ s.packetTransferSize := by
  unfold IDEState.limitedSize
  simp only
  generalize (if s.lcyl.toNat ||| s.hcyl.toNat <<< 8 = 0xffff then _ else _) = limit
  have heven : (if limit % 2 = 1 then limit - 1 else limit) ≤ limit := by split <;> omega
  split <;> omega

/-- Handing out a chunk keeps what is left of the transfer inside the buffer. -/
theorem bounded_replyChunk (h : Steady clean s) {size : Int} (hsize : 0 ≤ size)
    (hidx : 0 ≤ s.ioBufferIndex) (hend : clean → s.ioBufferIndex + size ≤ s.bufSize)
    (hreply : ReplyOk clean (s.replyChunk size)) : Bounded clean (s.replyChunk size) :=
  { h with
    index_nonneg := hidx
    index_le := by simp only [IDEState.replyChunk, ideTransferStart2]; omega
    end_le := hend
    reply := fun _ => hreply }

/-- What `ide_atapi_cmd_reply_end` has made sure of before it hands out a chunk. -/
def ChunkReady (clean : Prop) (s : IDEState) : Prop :=
  0 < s.packetTransferSize ∧
    ((s.lba = -1 ∧ s.elementaryTransferSize ≤ 0 ∧ 0 ≤ s.ioBufferIndex ∧
      (clean → s.ioBufferIndex + s.packetTransferSize ≤ s.bufSize)) ∨
    (s.lba ≠ -1 ∧ -2 ^ 31 ≤ s.lba ∧ s.lba < 2 ^ 31 ∧ 0 ≤ s.ioBufferIndex ∧
      s.cdSectorSize = 2048 ∧ s.ioBufferIndex ≤ 2048))

theorem keeps_ideAtapiReplyNext (h : Steady clean s) (hready : ChunkReady clean s) :
    Keeps clean (ideAtapiReplyNext cmd s) := by
  obtain ⟨hpos, hmode⟩ := hready
  have hbuf := bufSize_ge s
  have hlim := limitedSize_range hpos
  unfold ideAtapiReplyNext
  split
  · rename_i helem
    obtain ⟨_, hnone, _⟩ | ⟨hlba, hlo, hhi, hidx, hcd, hle⟩ := hmode
    · omega
    · refine bounded_replyChunk h (by omega) hidx (fun _ => by omega) fun _ => Or.inr ?_
      refine ⟨hlba, hlo, hhi, ?_, Or.inl ⟨hcd, ?_⟩⟩
      · simp only [IDEState.replyChunk, ideTransferStart2]
        omega
      · simp only [IDEState.replyChunk, ideTransferStart2]
        omega
  · simp only
    apply Keeps.interrupt
    have hregs : Steady clean { s with
        nsector := (s.nsector &&& ~~~7) ||| atapiIntReasonIo
        lcyl := byteOf s.limitedSize
        hcyl := byteOf (s.limitedSize / 256)
        elementaryTransferSize := s.limitedSize } := { h with }
    rcases hmode with ⟨hlba, _, hidx, hle⟩ | ⟨hlba, hlo, hhi, hidx, hcd, hle⟩
    · rw [if_neg (by simp [hlba])]
      refine bounded_replyChunk hregs hlim.1 hidx (fun hc => ?_)
        fun _ => Or.inl ⟨hlba, ?_, ?_, fun hc => ?_⟩
      · have hle := hle hc
        simp only [IDEState.bufSize] at *
        omega
      · simp only [IDEState.replyChunk, ideTransferStart2]
        omega
      · simp only [IDEState.replyChunk, ideTransferStart2]
        omega
      · have hle := hle hc
        simp only [IDEState.replyChunk, ideTransferStart2, IDEState.bufSize] at *
        omega
    · rw [if_pos hlba]
      refine bounded_replyChunk hregs ?_ hidx (fun _ => ?_) fun _ => Or.inr ?_
      · omega
      · simp only [IDEState.bufSize] at *
        omega
      · refine ⟨hlba, hlo, hhi, ?_, Or.inl ⟨hcd, ?_⟩⟩
        · simp only [IDEState.replyChunk, ideTransferStart2]
          omega
        · simp only [IDEState.replyChunk, ideTransferStart2]
          omega

theorem keeps_ideAtapiCmdError (h : Bounded clean s) (senseKey asc : UInt8) :
    Keeps clean (ideAtapiCmdError cmd s senseKey asc) := .interrupt { h with }

theorem keeps_ideAtapiCmdOk (h : Bounded clean s) : Keeps clean (ideAtapiCmdOk cmd s) :=
  .interrupt { h with }

theorem keeps_ideAtapiCmdReplyEnd (h : Steady clean s) (hreply : ReplyOk clean s) :
    Keeps clean (ideAtapiCmdReplyEnd cmd s) := by
  have hbuf := bufSize_ge s
  unfold ideAtapiCmdReplyEnd
  split
  · exact .interrupt { h.transferStop2 with }
  rename_i hpos
  have hmode := hreply (by omega)
  split
  · rename_i hread
    obtain ⟨hno, _⟩ | ⟨hlba, hlo, hhi, hidx, hsize⟩ := hmode
    · exact absurd hno hread.1
    unfold cdReadSector
    split
    · apply Keeps.ask
      rintro ⟨ret, bytes⟩ ⟨hlen, hrange⟩
      simp only at hlen hrange
      rw [access_of_le (Int.le_refl 0) (by omega)]
      change Keeps clean (if ret < 0 then _ else _)
      have hput : Steady clean (s.put 0 bytes) := h.put (by omega)
      split
      · exact keeps_ideAtapiCmdError hput.transferStop2 _ _
      · rename_i hret
        have hnonneg := lba_nonneg hlo (hrange (by omega))
        have hrng := int32_range (s.lba + 1)
        refine keeps_ideAtapiReplyNext { hput with } ⟨by simp only [IDEState.put, IDEState.access]; omega,
          Or.inr ⟨int32_succ_ne hnonneg hhi, hrng.1, hrng.2, Int.le_refl 0, ?_, ?_⟩⟩
        · assumption
        · simp
    · change Keeps clean (ideAtapiIoError cmd (ideTransferStop2 s))
      exact keeps_ideAtapiCmdError h.transferStop2 _ _
  · rename_i hno
    refine keeps_ideAtapiReplyNext h ⟨by omega, ?_⟩
    rcases hmode with hanswer | ⟨hlba, hlo, hhi, hidx, hsize⟩
    · exact Or.inl hanswer
    · refine Or.inr ⟨hlba, hlo, hhi, hidx, ?_⟩
      rcases hsize with hcd | ⟨hcd, hat⟩
      · exact hcd
      · exact absurd ⟨hlba, by omega⟩ hno

theorem keeps_ideAtapiCmdReply (h : Steady clean s) {size maxSize : Nat} (hle : min size maxSize ≤ 512) :
    Keeps clean (ideAtapiCmdReply cmd s size maxSize) := by
  have hbuf := bufSize_ge s
  refine keeps_ideAtapiCmdReplyEnd { h with } fun _ => Or.inl ⟨rfl, Int.le_refl 0, Int.le_refl 0, fun _ => ?_⟩
  simp only [IDEState.bufSize] at *
  omega

/-- A READ, as long as its LBA is a real one or what it moves happens to fit. -/
theorem keeps_ideAtapiCmdReadPio (h : Steady clean s) {lba nbSectors sectorSize : Int}
    (hlba : -2 ^ 31 ≤ lba ∧ lba < 2 ^ 31) (hsize : sectorSize = 2048 ∨ sectorSize = 2352)
    (hfits : clean → ¬s.overrun lba nbSectors sectorSize) :
    Keeps clean (ideAtapiCmdReadPio cmd s lba nbSectors sectorSize) := by
  refine keeps_ideAtapiCmdReplyEnd { h with } fun hpos => ?_
  simp only [IDEState.overrun] at hpos hfits
  by_cases hmark : lba = -1
  · refine Or.inl ⟨hmark, Int.le_refl 0, ?_, fun hc => ?_⟩
    · simp only
      omega
    · have hfits := hfits hc
      simp only [IDEState.bufSize] at *
      omega
  · refine Or.inr ⟨hmark, hlba.1, hlba.2, ?_, ?_⟩
    · simp only
      omega
    · rcases hsize with rfl | rfl
      · exact Or.inl ⟨rfl, Int.le_refl _⟩
      · exact Or.inr ⟨rfl, rfl⟩

end Reply

section Packet
variable {s : IDEState} {cmd : UInt8}

theorem Steady.put_low {s : IDEState} (h : Steady clean s) {off : Nat} {bytes : List UInt8}
    (hle : off + bytes.length ≤ 1024) : Steady clean (s.put off bytes) := by
  have hsize := bufSize_ge s
  exact h.put (by omega)

theorem length_beBytes (width value : Nat) : (beBytes width value).length = width := by
  rw [beBytes, List.length_reverse, LittleEndian.length_put]

theorem keeps_errorCmd (h : Bounded clean s) : Keeps clean (errorCmd cmd s) :=
  keeps_ideAtapiCmdError h _ _

/-- An answer is stored at the front of the buffer, then handed out. -/
theorem keeps_answer (h : Bounded clean s) {bytes : List UInt8} {size maxSize : Nat}
    (hlen : bytes.length ≤ 512) (hsize : size ≤ 512) :
    Keeps clean (ideAtapiCmdReply cmd (s.put 0 bytes) size maxSize) :=
  keeps_ideAtapiCmdReply (h.toSteady.put_low (by omega)) (by omega)

theorem keeps_withMedium (h : Bounded clean s) {k : Nat → IdeProg IDEState}
    (hk : ∀ total, Keeps clean (k total)) : Keeps clean (withMedium cmd s k) := by
  refine Keeps.ask fun count _ => ?_
  simp only
  split
  · exact keeps_ideAtapiCmdError h _ _
  · exact hk _

theorem keeps_atapiTestUnitReady (h : Bounded clean s) : Keeps clean (atapiTestUnitReady cmd s) := by
  unfold atapiTestUnitReady
  split
  · exact keeps_ideAtapiCmdOk h
  · have hchanged : Bounded clean { s with cdromChanged := false } := { h with }
    exact keeps_ideAtapiCmdError hchanged _ _

theorem keeps_atapiModeSense (h : Bounded clean s) : Keeps clean (atapiModeSense cmd s) := by
  unfold atapiModeSense
  simp only
  split
  · split
    · exact keeps_answer h (by decide) (by decide)
    split
    · exact keeps_answer h (by decide) (by decide)
    · exact keeps_errorCmd h
  split
  · exact keeps_ideAtapiCmdError h _ _
  · exact keeps_errorCmd h

theorem keeps_atapiRequestSense (h : Bounded clean s) : Keeps clean (atapiRequestSense cmd s) := by
  have hput : Steady clean (s.put 0 [0xf0, 0, s.senseKey, 0, 0, 0, 0, 10, 0, 0, 0, 0, s.asc, 0, 0, 0, 0, 0]) :=
    h.toSteady.put_low (by simp)
  unfold atapiRequestSense
  refine keeps_ideAtapiCmdReply ?_ (by omega)
  split
  · exact { hput with }
  · exact hput

theorem packetLba_range (s : IDEState) : -2 ^ 31 ≤ s.packetLba ∧ s.packetLba < 2 ^ 31 :=
  int32_range _

theorem keeps_atapiRead (h : Bounded clean s) (hop : s.ioBuffer 0 = gpcmdRead10 ∨ s.ioBuffer 0 = gpcmdRead12)
    (hfits : clean → ∀ r ∈ s.readPacket, ¬s.overrun s.packetLba r.1 r.2) : Keeps clean (atapiRead cmd s) := by
  have hpacket : s.readPacket = some
      (if s.ioBuffer 0 = gpcmdRead10 then (s.beAt 7 2 : Int) else int32 (s.beAt 6 4), 2048) := by
    rcases hop with hop | hop <;> simp [IDEState.readPacket, hop, gpcmdRead10, gpcmdRead12]
  have hover := fun hc => hfits hc _ hpacket
  unfold atapiRead
  generalize (if s.ioBuffer 0 = gpcmdRead10 then (s.beAt 7 2 : Int) else int32 (s.beAt 6 4)) = nb at *
  by_cases hzero : nb = 0
  · rw [if_pos hzero]
    exact keeps_ideAtapiCmdOk h
  · rw [if_neg hzero]
    exact keeps_ideAtapiCmdReadPio h.toSteady (packetLba_range s) (Or.inl rfl) hover

theorem readPacket_readCd (hop : s.ioBuffer 0 = gpcmdReadCd) :
    s.readPacket = if s.ioBuffer 9 &&& 0xf8 = 0x10 then some ((s.beAt 6 3 : Int), 2048)
      else if s.ioBuffer 9 &&& 0xf8 = 0xf8 then some ((s.beAt 6 3 : Int), 2352) else none := by
  unfold IDEState.readPacket
  rw [if_neg (by rw [hop]; decide), if_neg (by rw [hop]; decide), if_pos hop]

theorem keeps_atapiReadCd (h : Bounded clean s) (hop : s.ioBuffer 0 = gpcmdReadCd)
    (hfits : clean → ∀ r ∈ s.readPacket, ¬s.overrun s.packetLba r.1 r.2) : Keeps clean (atapiReadCd cmd s) := by
  rw [readPacket_readCd hop] at hfits
  unfold atapiReadCd
  generalize (s.beAt 6 3 : Int) = nb at *
  generalize s.ioBuffer 9 &&& 0xf8 = request at *
  simp only
  split
  · exact keeps_ideAtapiCmdOk h
  split
  · exact keeps_ideAtapiCmdOk h
  by_cases hdata : request = 0x10
  · rw [if_pos hdata] at hfits ⊢
    exact keeps_ideAtapiCmdReadPio h.toSteady (packetLba_range s) (Or.inl rfl)
      fun hc => hfits hc (nb, 2048) rfl
  rw [if_neg hdata] at hfits ⊢
  by_cases hraw : request = 0xf8
  · rw [if_pos hraw] at hfits ⊢
    exact keeps_ideAtapiCmdReadPio h.toSteady (packetLba_range s) (Or.inr rfl)
      fun hc => hfits hc (nb, 2352) rfl
  · rw [if_neg hraw]
    exact keeps_errorCmd h

theorem keeps_atapiSeek (h : Bounded clean s) : Keeps clean (atapiSeek cmd s) := by
  refine keeps_withMedium h fun total => ?_
  split
  · exact keeps_ideAtapiCmdError h _ _
  · exact keeps_ideAtapiCmdOk h

theorem length_tocAddress (msf : Bool) (lba : Int) : (tocAddress msf lba).length = 4 := by
  unfold tocAddress
  split
  · rfl
  · exact length_beBytes _ _

theorem length_cdromReadToc {nbSectors : Int} {msf : Bool} {track : UInt8} {toc : List UInt8}
    (h : cdromReadToc nbSectors msf track = some toc) : toc.length ≤ 20 := by
  unfold cdromReadToc at h
  split at h
  · cases h
  · cases h
    simp only [List.length_append, length_beBytes, length_tocAddress]
    split <;> simp [length_tocAddress]

theorem length_cdromReadTocRaw (nbSectors : Int) (msf : Bool) :
    (cdromReadTocRaw nbSectors msf).length = 48 := by
  simp [cdromReadTocRaw, length_beBytes, length_tocAddress]

theorem keeps_atapiReadToc (h : Bounded clean s) : Keeps clean (atapiReadToc cmd s) := by
  refine keeps_withMedium h fun total => ?_
  simp only
  split
  · split
    · exact keeps_errorCmd h
    · rename_i toc htoc
      have hlen := length_cdromReadToc htoc
      exact keeps_answer h (by omega) (by omega)
  split
  · exact keeps_answer h (by simp) (by omega)
  split
  · have hlen := length_cdromReadTocRaw (int32 total) ((s.ioBuffer 1 >>> 1) &&& 1 ≠ 0)
    exact keeps_answer h (by omega) (by omega)
  · exact keeps_errorCmd h

theorem keeps_atapiReadCapacity (h : Bounded clean s) : Keeps clean (atapiReadCapacity cmd s) := by
  refine keeps_withMedium h fun total => keeps_answer h ?_ (by omega)
  simp only [List.length_append, length_beBytes]
  decide

theorem Steady.ideAtapiSetProfile (h : Steady clean s) {index : Nat} (hindex : index ≤ 1) (profile : Nat) :
    Steady clean (ideAtapiSetProfile s index profile) := by
  have hput : Steady clean (s.put (12 + index * 4) (beBytes 2 profile)) :=
    h.put_low (by rw [length_beBytes]; omega)
  exact (hput.put_low (by simp; omega)).put_low (by simp)

theorem Steady.configurationData (h : Steady clean s) {maxLen : Nat} (hle : maxLen ≤ 512) :
    Steady clean (configurationData s maxLen) := by
  have hclear : Steady clean (s.put 0 (List.replicate maxLen 0)) :=
    h.put_low (by rw [List.length_replicate]; omega)
  have hprofile : ∀ s' : IDEState, Steady clean s' → Steady clean (if mediaIsDvd s' then
      s'.put 6 (beBytes 2 mmcProfileDvdRom)
      else if mediaIsCd s' then s'.put 6 (beBytes 2 mmcProfileCdRom) else s') := by
    intro s' h'
    split
    · exact h'.put_low (by decide)
    split
    · exact h'.put_low (by decide)
    · exact h'
  unfold Winspire.Ide.configurationData
  refine Steady.put_low ?_ (by decide)
  refine Steady.ideAtapiSetProfile ?_ (by decide) _
  refine Steady.ideAtapiSetProfile ?_ (by decide) _
  exact (hprofile _ hclear).put_low (by simp)

theorem keeps_atapiGetConfiguration (h : Bounded clean s) : Keeps clean (atapiGetConfiguration cmd s) := by
  unfold atapiGetConfiguration
  split
  · exact keeps_errorCmd h
  · exact keeps_ideAtapiCmdReply (h.toSteady.configurationData (by omega)) (by omega)

theorem keeps_atapiDispatch (h : Bounded clean s)
    (hfits : clean → ∀ r ∈ s.readPacket, ¬s.overrun s.packetLba r.1 r.2) : Keeps clean (atapiDispatch cmd s) := by
  unfold atapiDispatch
  refine .ite (fun _ => keeps_atapiTestUnitReady h) fun _ => ?_
  refine .ite (fun _ => keeps_atapiModeSense h) fun _ => ?_
  refine .ite (fun _ => keeps_atapiRequestSense h) fun _ => ?_
  refine .ite (fun _ => keeps_ideAtapiCmdOk h) fun _ => ?_
  refine .ite (fun hop => keeps_atapiRead h hop hfits) fun _ => ?_
  refine .ite (fun hop => keeps_atapiReadCd h hop hfits) fun _ => ?_
  refine .ite (fun _ => keeps_atapiSeek h) fun _ => ?_
  refine .ite (fun _ => keeps_ideAtapiCmdOk h) fun _ => ?_
  refine .ite (fun _ => keeps_answer h (by simp) (by omega)) fun _ => ?_
  refine .ite (fun _ => keeps_atapiReadToc h) fun _ => ?_
  refine .ite (fun _ => keeps_atapiReadCapacity h) fun _ => ?_
  refine .ite (fun _ => keeps_ideAtapiCmdOk h) fun _ => ?_
  refine .ite (fun _ => keeps_answer h (by decide) (by omega)) fun _ => ?_
  refine .ite (fun _ => keeps_atapiGetConfiguration h) fun _ => ?_
  exact keeps_ideAtapiCmdError h _ _

theorem keeps_ideAtapiCmd (h : Bounded clean s) (hfits : clean → ¬s.wildRead) : Keeps clean (ideAtapiCmd cmd s) := by
  have hbuf := bufSize_ge s
  have hpacket : s.access 0 atapiPacketSize s.bufSize = s :=
    access_of_le (Int.le_refl 0) (by simp only [atapiPacketSize]; omega)
  unfold ideAtapiCmd
  rw [hpacket]
  by_cases hready : s.senseKey = senseUnitAttention ∧ s.ioBuffer 0 ≠ gpcmdRequestSense ∧
      s.ioBuffer 0 ≠ gpcmdInquiry
  · rw [if_pos hready]
    exact .interrupt { h with }
  · rw [if_neg hready]
    refine keeps_atapiDispatch h fun hc r hr hover => hfits hc ⟨fun hkey => ?_, r, hr, hover⟩
    have hno : s.ioBuffer 0 = gpcmdRequestSense ∨ s.ioBuffer 0 = gpcmdInquiry := by
      by_contra hother
      exact hready ⟨hkey, not_or.1 hother⟩
    -- REQUEST SENSE and INQUIRY are no READ packets
    rcases hno with hop | hop <;>
      simp [IDEState.readPacket, hop, gpcmdRequestSense, gpcmdInquiry, gpcmdRead10, gpcmdRead12,
        gpcmdReadCd] at hr

/-- A transfer of at most 512 bytes from the start of the buffer. -/
theorem Steady.transferStart2 (h : Steady clean s) {n : Nat} (hn : n ≤ 512) (func : EndTransfer)
    (hfunc : func ≠ .atapiCmdReplyEnd) : Bounded clean (ideTransferStart2 s 0 n func) :=
  { h with
    index_nonneg := Int.le_refl 0
    index_le := by simp only [ideTransferStart2]; omega
    end_le := fun _ => by
      have hbuf := bufSize_ge s
      simp only [ideTransferStart2, IDEState.bufSize] at *
      omega
    reply := fun hf => absurd hf hfunc }

theorem keeps_idecdExecCmd (h : Bounded clean s) (val : UInt8) : Keeps clean (idecdExecCmd cmd s val) := by
  unfold idecdExecCmd
  split
  · exact { h.ideSetSignature with }
  split
  · have hregs : Steady clean { s with status := readyStat ||| seekStat, nsector := 1 } := { h with }
    exact .interrupt (hregs.transferStart2 (by decide) _ (by simp))
  split
  · have hid := h.ideAtapiIdentify
    generalize ideAtapiIdentify s = s' at hid
    have hregs : Steady clean { s' with status := readyStat ||| seekStat } := { hid with }
    exact .interrupt (hregs.transferStart2 (n := 512) (by decide) _ (by simp))
  split
  · exact .interrupt h.ideSetSignature.ideAbortCommand
  · exact .interrupt h.ideAbortCommand

end Packet

end Winspire.Ide
