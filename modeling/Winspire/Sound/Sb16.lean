import Winspire.Lib.Blit
import Mathlib.Algebra.Order.Group.Unbundled.Int

/-!
# The sound card and its DMA controllers

The two DMA controllers, the transfer handler that the sound card has registered with channel 1 of
both, and the callback that takes samples for the output. The ports of the card set the format and
start and stop transfers.
-/

namespace Winspire.Sound

set_option autoImplicit false

abbrev Byte := BitVec 8
abbrev Word := BitVec 32

structure I8257Regs where
  nowAddr : Int
  nowCount : Int
  baseAddr : BitVec 16
  baseCount : BitVec 16
  mode : Byte
  page : Byte
  pageh : Byte

structure I8257State where
  dshift : Nat
  status : Byte
  command : Byte
  mask : Byte
  flipFlop : Bool
  regs : Fin 4 → I8257Regs
  bhScheduled : Bool
  running : Bool

inductive AudioFormat where
  | u8
  | s8
  | u16
  | s16
  deriving DecidableEq, Repr

def audioBufLen : Nat := 4096
def tmpbufLen : Nat := 4096

/-- `irqs` is what `set_irq` has been told, `mixer82` the interrupt status in the mixer. -/
structure Sb16 where
  irq : Nat
  fmtStereo : Bool
  fmtSigned : Bool
  fmtBits : Nat
  fmt : AudioFormat
  dmaAuto : Bool
  blockSize : Int
  fifo : Bool
  freq : Int
  timeConst : Int
  speaker : Bool
  useHdma : Bool
  highspeed : Bool
  leftTillIrq : Int
  dmaRunning : Bool
  bytesPerSecond : Int
  align : Word
  audioFree : Word
  audioBuf : Nat → Byte
  audioP : Word
  audioQ : Word
  voice : Bool
  activeOut : Bool
  mixer0e : Byte
  mixer82 : Byte
  irqs : List (Nat × Bool)

/-- The card, the controllers (`isa_hdma` is at `true`) and the memory. -/
structure Card where
  sb : Sb16
  isa : Bool → I8257State
  mem : Nat → Byte
  memSize : Nat

/-- The numbers of the channels, `dma` and `hdma`. -/
def sbChannel (hi : Bool) : Nat := if hi then 5 else 1

theorem sbIchan_lt : 1 < 4 := by decide

/-- The channel of either controller, `nchan & 3`. -/
def sbIchan : Fin 4 := ⟨1, sbIchan_lt⟩

namespace I8257Regs

def addr (r : I8257Regs) : Word :=
  (((r.pageh &&& 0x7f).setWidth 32) <<< 24) ||| (r.page.setWidth 32 <<< 16) |||
    BitVec.ofInt 32 r.nowAddr

def isVerifyTransfer (r : I8257Regs) : Bool := r.mode &&& 0x0c == 0

def dmaLen (r : I8257Regs) (ncont : Nat) : Int := (r.baseCount.toNat + 1 : Nat) * 2 ^ ncont

end I8257Regs

/-- Bytes from `a` on, until an address is not in the memory; the rest of the buffer stays. -/
def copyIn (mem : Nat → Byte) (memSize : Nat) (a : Word) (len : Nat) (p : Nat → Byte) :
    Nat → Byte := fun i =>
  if i < len ∧ ∀ k, k < i + 1 → (a + BitVec.ofNat 32 k).toNat < memSize then
    mem (a + BitVec.ofNat 32 i).toNat
  else p i

/-- The loop for transfers that count down. It copies the second half over the first. -/
def mirrorHalf (len : Nat) (p : Nat → Byte) : Nat → Byte := fun i =>
  if i < len / 2 then p (len - i - 1) else p i

def dmaReadMemory (c : Card) (hi : Bool) (buf : Nat → Byte) (pos : Int) (len : Nat) :
    Nat → Byte :=
  let r := (c.isa hi).regs sbIchan
  if r.isVerifyTransfer then buf
  else if r.mode.getLsbD 5 then
    mirrorHalf len (copyIn c.mem c.memSize
      (r.addr - BitVec.ofInt 32 pos - BitVec.ofNat 32 len) len buf)
  else copyIn c.mem c.memSize (r.addr + BitVec.ofInt 32 pos) len buf

namespace Sb16

def room (s : Sb16) : Nat :=
  let n := (s.audioQ - s.audioP).toNat
  if n ≤ audioBufLen then audioBufLen - n else 0

def pushAudio (s : Sb16) (xs : List Byte) : Sb16 :=
  let q := s.audioQ.toNat % audioBufLen
  let r := audioBufLen - q
  let buf :=
    if q + xs.length < audioBufLen then blit s.audioBuf q xs
    else blit (blit s.audioBuf q (xs.take r)) 0 (xs.drop r)
  { s with audioBuf := buf, audioQ := s.audioQ + BitVec.ofNat 32 xs.length }

end Sb16

/-- `to_copy`; a negative count is a large one, and both are cut to the size of `tmpbuf`. -/
def toCopy (temp left : Int) : Nat :=
  let n := if left < temp then left else temp
  if 0 ≤ n ∧ n ≤ tmpbufLen then n.toNat else tmpbufLen

/-- What a turn of the loop of `write_audio` queues. -/
def chunk (c : Card) (hi : Bool) (tmpbuf : Nat → Byte) (dmaPos dmaLen temp : Int) : List Byte :=
  let n := toCopy temp (dmaLen - dmaPos)
  (List.range (min n c.sb.room)).map (dmaReadMemory c hi tmpbuf dmaPos n)

theorem pushAudio_room {s : Sb16} {xs : List Byte} (h : xs.length ≤ s.room) :
    (s.pushAudio xs).room = s.room - xs.length := by
  unfold Sb16.room Sb16.pushAudio audioBufLen at *
  dsimp only at *
  split at h
  · have hsum : (s.audioQ + BitVec.ofNat 32 xs.length - s.audioP).toNat =
        (s.audioQ - s.audioP).toNat + xs.length := by
      rw [BitVec.toNat_sub, BitVec.toNat_add, BitVec.toNat_ofNat]
      rw [BitVec.toNat_sub] at *
      omega
    rw [hsum]
    split <;> omega
  · have hnil : xs.length = 0 := by omega
    rw [hnil]
    rename_i hfull
    have hsame : (s.audioQ + BitVec.ofNat 32 0 - s.audioP) = s.audioQ - s.audioP := by
      rw [show s.audioQ + BitVec.ofNat 32 0 = s.audioQ from BitVec.add_zero _]
    rw [hsame, if_neg hfull]

theorem length_chunk (c : Card) (hi : Bool) (tmpbuf : Nat → Byte) (dmaPos dmaLen temp : Int) :
    (chunk c hi tmpbuf dmaPos dmaLen temp).length =
      min (toCopy temp (dmaLen - dmaPos)) c.sb.room := by
  unfold chunk
  rw [List.length_map, List.length_range]

/-- The card after `write_audio`, and how much it has queued. `temp` is what is left to do. -/
def writeAudio (c : Card) (hi : Bool) (tmpbuf : Nat → Byte) (dmaPos dmaLen temp net : Int) :
    Card × Int :=
  if temp = 0 then (c, net)
  else if (chunk c hi tmpbuf dmaPos dmaLen temp).length = 0 then (c, net)
  else
    writeAudio { c with sb := c.sb.pushAudio (chunk c hi tmpbuf dmaPos dmaLen temp) } hi
      (dmaReadMemory c hi tmpbuf dmaPos (toCopy temp (dmaLen - dmaPos)))
      ((dmaPos + (chunk c hi tmpbuf dmaPos dmaLen temp).length).tmod dmaLen) dmaLen
      (temp - (chunk c hi tmpbuf dmaPos dmaLen temp).length)
      (net + (chunk c hi tmpbuf dmaPos dmaLen temp).length)
  termination_by c.sb.room
  decreasing_by
    have hlen := length_chunk c hi tmpbuf dmaPos dmaLen temp
    change (c.sb.pushAudio (chunk c hi tmpbuf dmaPos dmaLen temp)).room < c.sb.room
    rw [pushAudio_room (by omega)]
    omega

def nextBlock (blockSize left : Int) (h : 0 < blockSize) : Int :=
  if left ≤ 0 then nextBlock blockSize (blockSize + left) h else left
  termination_by (1 - left).toNat
  decreasing_by omega

namespace Card

def setIsa (c : Card) (hi : Bool) (d : I8257State) : Card :=
  { c with isa := Function.update c.isa hi d }

def setIrq (c : Card) (level : Bool) : Card :=
  { c with sb := { c.sb with irqs := c.sb.irqs ++ [(c.sb.irq, level)] } }

def setMixer82 (c : Card) (v : Byte) : Card := { c with sb := { c.sb with mixer82 := v } }

def setLeft (c : Card) (left : Int) : Card := { c with sb := { c.sb with leftTillIrq := left } }

def setDmaRunning (c : Card) (hold : Bool) : Card := { c with sb := { c.sb with dmaRunning := hold } }

def setActiveOut (c : Card) (on : Bool) : Card := { c with sb := { c.sb with activeOut := on } }

def setSpeaker (c : Card) (on : Bool) : Card := { c with sb := { c.sb with speaker := on } }

def setNowCount (c : Card) (hi : Bool) (ichan : Fin 4) (n : Int) : Card :=
  let d := c.isa hi
  c.setIsa hi { d with regs := Function.update d.regs ichan { d.regs ichan with nowCount := n } }

def setStatus (c : Card) (hi : Bool) (status : Byte) : Card :=
  c.setIsa hi { c.isa hi with status := status }

def setRunning (c : Card) (hi : Bool) (running : Bool) : Card :=
  c.setIsa hi { c.isa hi with running := running }

def rearm (c : Card) (hi : Bool) : Card := c.setIsa hi { c.isa hi with bhScheduled := true }

end Card

/-- Bit `ichan + 4` of the status, for channel 1. -/
def dreqBit : Byte := 0x20

/-- `control`. `run` is `i8257_dma_run`, which the change of DREQ calls. -/
def control (run : Bool → Card → Card) (hold : Bool) (c : Card) : Card :=
  let hi := c.sb.useHdma
  let c := c.setDmaRunning hold
  let status := (c.isa hi).status
  let status := if hold then status ||| dreqBit else status &&& ~~~dreqBit
  (run hi (c.setStatus hi status)).setActiveOut hold

def speaker (on : Bool) (c : Card) : Card := c.setSpeaker on

/-- The interrupt after a block. Without `dma_auto` the transfer is over. -/
def blockDone (run : Bool → Card → Card) (hi : Bool) (c : Card) : Card :=
  let c := (c.setMixer82 (c.sb.mixer82 ||| (if hi then 2 else 1))).setIrq true
  if c.sb.dmaAuto then c else speaker false (control run false c)

/-- The end of `SB_read_DMA`, after `written` bytes. -/
def countBlock (run : Bool → Card → Card) (hi : Bool) (written : Int) (c : Card) : Card :=
  let c := c.setLeft (c.sb.leftTillIrq - written)
  let c := if c.sb.leftTillIrq ≤ 0 then blockDone run hi c else c
  if h : 0 < c.sb.blockSize then c.setLeft (nextBlock c.sb.blockSize c.sb.leftTillIrq h) else c

/-- The card after the handler, and the new position. -/
def sbReadDma (run : Bool → Card → Card) (hi : Bool) (tmpbuf : Nat → Byte) (dmaPos dmaLen : Int)
    (c : Card) : Card × Int :=
  if c.sb.blockSize ≤ 0 then (c, dmaPos)
  else
    let left := if c.sb.leftTillIrq < 0 then c.sb.blockSize else c.sb.leftTillIrq
    let c := c.setLeft left
    let free := (c.sb.audioFree &&& ~~~c.sb.align).toInt
    if c.sb.voice ∧ (free ≤ 0 ∨ dmaLen = 0) then (c, dmaPos)
    else
      let free := if c.sb.voice then free else dmaLen
      let copy := if left ≤ free ∧ c.sb.dmaAuto = false then left else free
      let r := writeAudio c hi tmpbuf dmaPos dmaLen copy 0
      (countBlock run hi r.2 r.1, (dmaPos + r.2).tmod dmaLen)

/-- `i8257_channel_run`. The other channels have the handler that does nothing. -/
def channelRun (run : Bool → Card → Card) (hi : Bool) (tmpbuf : Nat → Byte) (ichan : Fin 4)
    (c : Card) : Card :=
  let d := c.isa hi
  let r := d.regs ichan
  let len := r.dmaLen d.dshift
  let res := if ichan = sbIchan then sbReadDma run hi tmpbuf r.nowCount len c else (c, r.nowCount)
  let c := res.1.setNowCount hi ichan res.2
  if res.2 = len then
    c.setStatus hi ((c.isa hi).status ||| (1 : Byte) <<< ichan.val)
  else c

/-- The channel is not masked, and its DREQ is set. -/
def I8257State.requested (d : I8257State) (ichan : Fin 4) : Bool :=
  !d.mask.getLsbD ichan.val && d.status.getLsbD (ichan.val + 4)

def turn (run : Bool → Card → Card) (hi : Bool) (tmpbuf : Nat → Byte) (c : Card × Bool)
    (ichan : Fin 4) : Card × Bool :=
  if (c.1.isa hi).requested ichan then (channelRun run hi tmpbuf ichan c.1, true) else c

/-- `i8257_dma_run`. A handler may run the controllers again, but not one that is running, so with
two controllers `depth` is used up only when both are. -/
def dmaRun : Nat → (Nat → Byte) → Bool → Card → Card
  | 0, _, hi, c => c.rearm hi
  | depth + 1, tmpbuf, hi, c =>
    if (c.isa hi).running then c.rearm hi
    else
      let r := (List.finRange 4).foldl (turn (dmaRun depth tmpbuf) hi tmpbuf)
        (c.setRunning hi true, false)
      let c := r.1.setRunning hi false
      if r.2 then c.rearm hi else c

/-- The call from `pc_step`. -/
def i8257DmaRun (tmpbuf : Nat → Byte) (hi : Bool) (c : Card) : Card := dmaRun 2 tmpbuf hi c

def rateOf (timeConst : Int) : Int := (1000000 + (256 - timeConst).tdiv 2).tdiv (256 - timeConst)

/-- `block_size << n` -/
def shiftBlock (n : Int) (by1 : Bool) : Int := if by1 then n * 2 else n

/-- The end of `dma_cmd8` and `dma_cmd`; `sounds` is whether they set `voice`. -/
def startTransfer (run : Bool → Card → Card) (sounds : Bool) (c : Card) : Card :=
  let c := c.setLeft c.sb.blockSize
  let c : Card := if sounds then { c with sb := { c.sb with voice := true } } else c
  speaker true (control run true c)

/-- `mask` is 1 for a transfer that goes on; `dmaLen` is none when the block size is set already. -/
def dmaCmd8 (run : Bool → Card → Card) (auto : Bool) (dmaLen : Option Int) (c : Card) : Card :=
  let stereo := c.sb.mixer0e &&& 2 != 0
  let freq :=
    if c.sb.timeConst = -1 then if c.sb.freq ≤ 0 then 11025 else c.sb.freq
    else rateOf c.sb.timeConst
  let blockSize :=
    match dmaLen with
    | some n => shiftBlock n stereo
    | none => if stereo then c.sb.blockSize - c.sb.blockSize % 2 else c.sb.blockSize
  let freq := if stereo then freq / 2 else freq
  let align : Word := if stereo then 1 else 0
  startTransfer run (decide (0 < freq)) { c with sb := { c.sb with
    fmt := .u8, useHdma := false, fmtBits := 8, fmtSigned := false, fmtStereo := stereo,
    freq := freq, blockSize := blockSize, bytesPerSecond := shiftBlock freq stereo,
    dmaAuto := auto, align := align } }

def formatOf (bits : Nat) (signed : Bool) : AudioFormat :=
  if bits = 16 then if signed then .s16 else .u16 else if signed then .s8 else .u8

/-- The commands 0xb0 to 0xcf. -/
def dmaCmd (run : Bool → Card → Card) (cmd d0 : Byte) (dmaLen : Int) (c : Card) : Card :=
  let signed := d0.getLsbD 4
  let stereo := d0.getLsbD 5
  let auto := cmd.getLsbD 2
  let bits := if cmd >>> 4 = 11 then 16 else if cmd >>> 4 = 12 then 8 else c.sb.fmtBits
  let freq := if c.sb.timeConst ≠ -1 then rateOf c.sb.timeConst else c.sb.freq
  let size := shiftBlock (dmaLen + 1) (bits == 16)
  let size := if auto then size else shiftBlock size stereo
  let wide := bits == 16
  startTransfer run (decide (freq ≠ 0)) { c with sb := { c.sb with
    useHdma := cmd < 0xc0, fifo := cmd.getLsbD 1, dmaAuto := auto, fmtSigned := signed,
    fmtStereo := stereo, fmtBits := bits, freq := freq, timeConst := -1, blockSize := size,
    fmt := formatOf bits signed, bytesPerSecond := shiftBlock (shiftBlock freq stereo) wide,
    highspeed := false
    align := (1 <<< (stereo.toNat + wide.toNat)) - 1 } }

abbrev Sample := BitVec 16

/-- The input of the output callback: frames of one or two samples. -/
structure Input where
  stereo : Bool
  ilen : Nat
  sample : Nat → Sample

/-- A frame of the output; a single sample goes to both sides. -/
def Input.frame (x : Input) (i : Nat) : Sample × Sample :=
  if x.stereo then (x.sample i, x.sample (i + 1)) else (x.sample i, x.sample i)

def Input.step (x : Input) : Nat := if x.stereo then 2 else 1

theorem Input.step_pos (x : Input) : 0 < x.step := by
  unfold Input.step
  split <;> decide

/-- The loop of the `resample_` functions: the frames it puts out, and `i` at its end. `uc` and
`dc` count down from the rates `os` and `is`. -/
def resampleLoop (x : Input) (olen os : Nat) (is : Int) (i j uc : Nat) (dc : Int) :
    List (Sample × Sample) × Nat :=
  if i + (x.step - 1) < x.ilen ∧ j + 1 < olen then
    let out := if dc - 1 = 0 then [x.frame i] else []
    let j := if dc - 1 = 0 then j + 2 else j
    let dc := if dc - 1 = 0 then is else dc - 1
    if uc ≤ 1 then
      let r := resampleLoop x olen os is (i + x.step) j os dc
      (out ++ r.1, r.2)
    else
      let r := resampleLoop x olen os is i j (uc - 1) dc
      (out ++ r.1, r.2)
  else ([], i)
  termination_by (x.ilen - i, uc)
  decreasing_by
    · have hstep := x.step_pos
      apply Prod.Lex.left
      omega
    · apply Prod.Lex.right
      omega

/-- The rates are divided by their common divisor. `freq` is not negative. -/
def resample (x : Input) (olen os : Nat) (freq : Nat) : List (Sample × Sample) × Nat :=
  let g := Nat.gcd os freq
  resampleLoop x olen (os / g) (freq / g : Nat) 0 0 (os / g) (freq / g : Nat)

def outputRate : Nat := 44100

namespace Sb16

/-- The `n` bytes at the front of the queue. -/
def queuedByte (s : Sb16) (i : Nat) : Byte :=
  s.audioBuf ((s.audioP.toNat % audioBufLen + i) % audioBufLen)

/-- An element of `audio_buf` as `int16_t`, from `audio_p / 2` on. -/
def queuedWord (s : Sb16) (i : Nat) : Sample :=
  let k := (s.audioP.toNat % audioBufLen / 2 + i) % (audioBufLen / 2)
  s.audioBuf (2 * k + 1) ++ s.audioBuf (2 * k)

/-- What a format makes of the queue, and how many bytes an element has. -/
def input (s : Sb16) (len : Nat) : Option (Input × Nat) :=
  match s.fmt with
  | .s16 => some (⟨s.fmtStereo, len / 2, s.queuedWord⟩, 2)
  | .u16 => some (⟨s.fmtStereo, len / 2, fun i => s.queuedWord i - 32768⟩, 2)
  | .u8 => some (⟨s.fmtStereo, len, fun i => (s.queuedByte i - 128) ++ (0 : Byte)⟩, 1)
  | .s8 => none

end Sb16

/-- `sb16_audio_callback`, and what it puts into the stream. -/
def audioCallback (free : Nat) (s : Sb16) : Sb16 × List (Sample × Sample) :=
  let s := { s with audioFree := BitVec.ofNat 32 free }
  if s.activeOut = false then (s, [])
  else
    let len := (s.audioQ - s.audioP).toNat
    if audioBufLen < len then ({ s with audioP := s.audioQ }, [])
    else
      match s.input len with
      | some (x, size) =>
        let r := resample x (free / 2) outputRate s.freq.toNat
        ({ s with audioP := s.audioP + BitVec.ofNat 32 (r.2 * size) }, r.1)
      | none => ({ s with audioP := s.audioQ }, [])

end Winspire.Sound
