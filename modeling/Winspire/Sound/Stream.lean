import Winspire.Lib.Cyclic
import Winspire.Sound.Sb16

/-!
# The stream from memory to the output

The guest's buffer is read round and round, and what is read goes through the queue of the card in
its order. An interrupt is raised whenever a block is complete.
-/

namespace Winspire.Sound

set_option autoImplicit false

theorem audioBufLen_pos : 0 < audioBufLen := by decide

/-- `audio_buf` -/
def audioRing : Cyclic := ⟨0, audioBufLen, audioBufLen_pos⟩

namespace Sb16

def queueLength (s : Sb16) : Nat := (s.audioQ - s.audioP).toNat

def queued (s : Sb16) : List Byte := audioRing.read s.audioBuf s.audioP.toNat s.queueLength

end Sb16

section Queue

variable {s : Sb16} {xs : List Byte}

theorem counter_mod (x : Word) (n : Nat) :
    (x + BitVec.ofNat 32 n).toNat % audioRing.size = (x.toNat + n) % audioRing.size := by
  change (x + BitVec.ofNat 32 n).toNat % 4096 = (x.toNat + n) % 4096
  rw [BitVec.toNat_add, BitVec.toNat_ofNat]
  omega

theorem audioQ_mod (s : Sb16) :
    s.audioQ.toNat % audioRing.size = (s.audioP.toNat + s.queueLength) % audioRing.size := by
  have hq : s.audioQ = s.audioP + BitVec.ofNat 32 s.queueLength := by
    unfold Sb16.queueLength
    rw [BitVec.ofNat_toNat, BitVec.setWidth_eq, BitVec.add_comm, BitVec.sub_add_cancel]
  conv_lhs => rw [hq]
  exact counter_mod s.audioP s.queueLength

theorem room_eq (h : s.queueLength ≤ audioBufLen) : s.room = audioBufLen - s.queueLength :=
  if_pos h

theorem pushAudio_buf (s : Sb16) (xs : List Byte) (h : xs.length ≤ audioBufLen) : (s.pushAudio xs).audioBuf =
    audioRing.put s.audioBuf (s.audioP.toNat + s.queueLength) xs := by
  have hq : audioRing.cell s.audioQ.toNat = s.audioQ.toNat % audioBufLen := Nat.zero_add _
  have hlt : s.audioQ.toNat % audioBufLen < audioBufLen := Nat.mod_lt _ audioBufLen_pos
  rw [← Cyclic.put_congr_mod (audioQ_mod s)]
  unfold Sb16.pushAudio
  dsimp only
  split
  · rename_i hfit
    rw [← hq] at hfit ⊢
    apply Cyclic.blit_eq_put
    change audioRing.cell s.audioQ.toNat + xs.length ≤ 0 + audioBufLen
    omega
  · rename_i hwrap
    have hr : (xs.take (audioBufLen - s.audioQ.toNat % audioBufLen)).length =
        audioBufLen - s.audioQ.toNat % audioBufLen := by
      rw [List.length_take]
      omega
    have hend : audioRing.cell (s.audioQ.toNat +
        (xs.take (audioBufLen - s.audioQ.toNat % audioBufLen)).length) = 0 := by
      change 0 + (s.audioQ.toNat + _) % 4096 = 0
      rw [hr]
      change 0 + (s.audioQ.toNat + (4096 - s.audioQ.toNat % 4096)) % 4096 = 0
      omega
    conv_rhs => rw [← List.take_append_drop (audioBufLen - s.audioQ.toNat % audioBufLen) xs]
    rw [Cyclic.put_append, ← Cyclic.blit_eq_put, ← Cyclic.blit_eq_put, hend, hq]
    · change audioRing.cell s.audioQ.toNat + _ ≤ 0 + audioBufLen
      rw [hr, hq]
      omega
    · rw [hend, List.length_drop]
      change 0 + _ ≤ 0 + audioBufLen
      omega

theorem pushAudio_length (h : s.queueLength + xs.length ≤ audioBufLen) :
    (s.pushAudio xs).queueLength = s.queueLength + xs.length := by
  have hlen : audioBufLen = 4096 := rfl
  unfold Sb16.queueLength at *
  change (s.audioQ + BitVec.ofNat 32 xs.length - s.audioP).toNat = _
  rw [BitVec.toNat_sub, BitVec.toNat_add, BitVec.toNat_ofNat]
  rw [BitVec.toNat_sub] at h ⊢
  omega

theorem pushAudio_queued (h : s.queueLength + xs.length ≤ audioBufLen) :
    (s.pushAudio xs).queued = s.queued ++ xs := by
  have hbuf := pushAudio_buf s xs (by omega)
  unfold Sb16.queued
  rw [pushAudio_length h, Cyclic.read_add]
  change audioRing.read (s.pushAudio xs).audioBuf s.audioP.toNat s.queueLength ++
    audioRing.read (s.pushAudio xs).audioBuf (s.audioP.toNat + s.queueLength) xs.length = _
  rw [hbuf, Cyclic.read_put_before (Nat.le_refl _), Cyclic.read_put]
  · change xs.length ≤ audioBufLen
    omega
  · change _ ≤ s.audioP.toNat + audioBufLen
    omega

end Queue

/-- Channel 1 of a controller counts up through the cells of `buf`, which are memory. -/
structure Channel (hi : Bool) (buf : Cyclic) (c : Card) : Prop where
  transfers : ((c.isa hi).regs sbIchan).isVerifyTransfer = false
  up : ((c.isa hi).regs sbIchan).mode.getLsbD 5 = false
  base : ((c.isa hi).regs sbIchan).addr.toNat = buf.base
  size : ((c.isa hi).regs sbIchan).dmaLen (c.isa hi).dshift = buf.size
  mem : buf.base + buf.size ≤ c.memSize
  word : buf.base + buf.size ≤ 2 ^ 32

theorem Channel.congr {hi : Bool} {buf : Cyclic} {c c' : Card} {n : Int} (h : Channel hi buf c)
    (hregs : (c'.isa hi).regs sbIchan = { (c.isa hi).regs sbIchan with nowCount := n })
    (hdshift : (c'.isa hi).dshift = (c.isa hi).dshift) (hmem : c'.memSize = c.memSize) :
    Channel hi buf c' where
  transfers := by rw [hregs]; exact h.transfers
  up := by rw [hregs]; exact h.up
  base := by rw [hregs]; exact h.base
  size := by rw [hregs, hdshift]; exact h.size
  mem := by rw [hmem]; exact h.mem
  word := h.word

section Buffer

variable {hi : Bool} {buf : Cyclic} {c : Card} {tmpbuf : Nat → Byte} {pos n : Nat} {temp net : Int}

/-- The position as the controller counts it. -/
def posOf (buf : Cyclic) (pos : Nat) : Int := (pos % buf.size : Nat)

theorem dmaReadMemory_cell (h : Channel hi buf c) (hn : pos % buf.size + n ≤ buf.size) {i : Nat}
    (hi' : i < n) : dmaReadMemory c hi tmpbuf (posOf buf pos) n i = c.mem (buf.cell (pos + i)) := by
  have hmem := h.mem
  have hword := h.word
  have hcell : buf.cell (pos + i) = buf.base + pos % buf.size + i := by
    have hstart : buf.cell pos = buf.base + pos % buf.size := rfl
    rw [Cyclic.cell_add (by omega), hstart]
  have hpos : BitVec.ofInt 32 (posOf buf pos) = BitVec.ofNat 32 (pos % buf.size) :=
    BitVec.ofInt_natCast _ _
  have haddr : ∀ k, k < n → (((c.isa hi).regs sbIchan).addr + BitVec.ofInt 32 (posOf buf pos) +
      BitVec.ofNat 32 k).toNat = buf.base + pos % buf.size + k := by
    intro k hk
    rw [hpos, BitVec.toNat_add, BitVec.toNat_add, h.base, BitVec.toNat_ofNat, BitVec.toNat_ofNat]
    omega
  unfold dmaReadMemory
  rw [h.transfers, h.up, if_neg Bool.false_ne_true, if_neg Bool.false_ne_true]
  unfold copyIn
  have hinside : ∀ k, k < i + 1 → (((c.isa hi).regs sbIchan).addr + BitVec.ofInt 32 (posOf buf pos) +
      BitVec.ofNat 32 k).toNat < c.memSize := by
    intro k hk
    rw [haddr k (by omega)]
    omega
  rw [if_pos ⟨hi', hinside⟩, haddr i hi', hcell]

theorem toCopy_le (buf : Cyclic) (pos : Nat) (htemp : 0 < temp) : (toCopy temp (buf.size - posOf buf pos) : Int) ≤ temp ∧
    pos % buf.size + toCopy temp (buf.size - posOf buf pos) ≤ buf.size ∧
    0 < toCopy temp (buf.size - posOf buf pos) := by
  have hlt := Nat.mod_lt pos buf.size_pos
  have htmp : tmpbufLen = 4096 := rfl
  unfold toCopy posOf
  dsimp only
  split <;> split <;> omega

theorem chunk_read (tmpbuf : Nat → Byte) (pos : Nat) (h : Channel hi buf c) (htemp : 0 < temp) :
    chunk c hi tmpbuf (posOf buf pos) buf.size temp =
      buf.read c.mem pos (min (toCopy temp (buf.size - posOf buf pos)) c.sb.room) := by
  obtain ⟨-, hfit, -⟩ := toCopy_le buf pos htemp
  unfold chunk Cyclic.read
  apply List.map_congr_left
  intro i hi'
  have hlt := List.mem_range.mp hi'
  exact dmaReadMemory_cell h hfit (by omega)

theorem posOf_add (buf : Cyclic) (pos n : Nat) :
    (posOf buf pos + n).tmod buf.size = posOf buf (pos + n) := by
  have hsum : posOf buf pos + n = ((pos % buf.size + n : Nat) : Int) := rfl
  rw [hsum, ← Int.ofNat_tmod]
  unfold posOf
  rw [Nat.mod_add_mod]

/-- Bytes are queued, and nothing else happens. -/
structure Queues (xs : List Byte) (s s' : Sb16) : Prop where
  frame : s' = { s with audioBuf := s'.audioBuf, audioQ := s'.audioQ }
  length : s'.queueLength = s.queueLength + xs.length
  queued : s'.queued = s.queued ++ xs

theorem Queues.trans {xs ys : List Byte} {s t u : Sb16} (h : Queues xs s t) (h' : Queues ys t u) :
    Queues (xs ++ ys) s u where
  frame := by
    refine h'.frame.trans ?_
    rw [h.frame]
  length := by rw [h'.length, h.length, List.length_append, Nat.add_assoc]
  queued := by rw [h'.queued, h.queued, List.append_assoc]

theorem pushAudio_queues {s : Sb16} {xs : List Byte}
    (h : s.queueLength + xs.length ≤ audioBufLen) : Queues xs s (s.pushAudio xs) :=
  ⟨rfl, pushAudio_length h, pushAudio_queued h⟩

/-- All that is asked for is queued, or all there is room for. -/
theorem writeAudio_queues (c : Card) (tmpbuf : Nat → Byte) (pos : Nat) (temp net : Int)
    (h : Channel hi buf c) (hq : c.sb.queueLength ≤ audioBufLen) (htemp : 0 ≤ temp) :
    ∃ s', Queues (buf.read c.mem pos (min temp.toNat c.sb.room)) c.sb s' ∧
      writeAudio c hi tmpbuf (posOf buf pos) buf.size temp net =
        ({ c with sb := s' }, net + (min temp.toNat c.sb.room : Nat)) := by
  generalize hr : c.sb.room = room
  induction room using Nat.strong_induction_on generalizing c tmpbuf pos temp net with
  | h room ih =>
    have hnone : min temp.toNat room = 0 → ∃ s',
        Queues (buf.read c.mem pos (min temp.toNat room)) c.sb s' ∧
          (c, net) = ({ c with sb := s' }, net + (min temp.toNat room : Nat)) := by
      intro hzero
      rw [hzero]
      exact ⟨c.sb, ⟨rfl, rfl, (List.append_nil _).symm⟩, by simp⟩
    rw [writeAudio]
    by_cases hdone : temp = 0
    · rw [if_pos hdone]
      apply hnone
      rw [hdone]
      exact Nat.zero_min room
    · have hpos : 0 < temp := by omega
      obtain ⟨hle, hfit, hsome⟩ := toCopy_le buf pos hpos
      have hchunk := chunk_read tmpbuf pos h hpos
      rw [hr] at hchunk
      generalize toCopy temp (buf.size - posOf buf pos) = n at *
      rw [if_neg hdone, hchunk, Cyclic.length_read]
      by_cases hfull : min n room = 0
      · rw [if_pos hfull]
        apply hnone
        omega
      · rw [if_neg hfull, posOf_add]
        generalize hk : min n room = k at *
        have hroom := room_eq hq
        have hlength : (buf.read c.mem pos k).length = k := Cyclic.length_read buf c.mem pos k
        generalize hxs : buf.read c.mem pos k = xs at *
        have hpush : Queues xs c.sb (c.sb.pushAudio xs) := pushAudio_queues (by omega)
        have hnext : (c.sb.pushAudio xs).room = room - k := by
          rw [pushAudio_room (by omega), hr, hlength]
        have hchannel : Channel hi buf { c with sb := c.sb.pushAudio xs } :=
          ⟨h.transfers, h.up, h.base, h.size, h.mem, h.word⟩
        have hbound : (c.sb.pushAudio xs).queueLength ≤ audioBufLen := by
          rw [hpush.length]
          omega
        obtain ⟨s', hs', hrun⟩ := ih (room - k) (by omega) { c with sb := c.sb.pushAudio xs }
          (dmaReadMemory c hi tmpbuf (posOf buf pos) n) (pos + k) (temp - k) (net + k)
          hchannel hbound (by omega) hnext
        have hsum : min temp.toNat room = k + min (temp - k).toNat (room - k) := by omega
        refine ⟨s', ?_, ?_⟩
        · rw [hsum, Cyclic.read_add, hxs]
          exact hpush.trans hs'
        · rw [hrun, hsum, Int.natCast_add, Int.add_assoc]

end Buffer

section Blocks

variable {block total n : Nat}

theorem nextBlock_eq (hb : (0 : Int) < block) (x : Nat) :
    nextBlock block (block - x) hb = (block - x % block : Nat) := by
  induction x using Nat.strong_induction_on with
  | h x ih =>
    have hmod := Nat.mod_lt x (show 0 < block by omega)
    rw [nextBlock]
    split
    · have hsum : (block : Int) + (block - x) = block - (x - block : Nat) := by omega
      have hless : (x - block) % block = x % block := by
        rw [← Nat.mod_eq_sub_mod (by omega)]
      rw [hsum, ih (x - block) (by omega), hless]
    · rw [Nat.mod_eq_of_lt (by omega)]
      omega

/-- The end of a block is reached when no more bytes of it are left. -/
theorem block_ends (total n : Nat) (hb : 0 < block) :
    block - total % block ≤ n ↔ total / block < (total + n) / block := by
  have hmod := Nat.mod_lt total hb
  have hsum := Nat.div_add_mod total block
  have hnext : (total / block + 1) * block = block * (total / block) + block := by
    rw [Nat.add_mul, Nat.one_mul, Nat.mul_comm]
  rw [← Nat.succ_le_iff, Nat.succ_eq_add_one, Nat.le_div_iff_mul_le hb, hnext]
  omega

theorem left_eq (hb : 0 < block) :
    ((block - total % block : Nat) : Int) - n = block - (total % block + n : Nat) := by
  have hmod := Nat.mod_lt total hb
  omega

end Blocks

structure Idle (hi : Bool) (c c' : Card) : Prop where
  sb : c'.sb = c.sb
  mem : c'.mem = c.mem
  memSize : c'.memSize = c.memSize
  channel : (c'.isa hi).regs sbIchan = (c.isa hi).regs sbIchan
  dshift : (c'.isa hi).dshift = (c.isa hi).dshift
  dreq : (c'.isa hi).status.getLsbD 5 = (c.isa hi).status.getLsbD 5

/-- `n` bytes are fetched for the queue, and the blocks they complete are counted. -/
structure Fetches (hi : Bool) (buf : Cyclic) (block pos total n : Nat) (c c' : Card) : Prop where
  mem : c'.mem = c.mem
  memSize : c'.memSize = c.memSize
  channel : (c'.isa hi).regs sbIchan =
    { (c.isa hi).regs sbIchan with nowCount := posOf buf (pos + total + n) }
  dshift : (c'.isa hi).dshift = (c.isa hi).dshift
  used : c'.sb.useHdma = c.sb.useHdma
  blockSize : c'.sb.blockSize = c.sb.blockSize
  auto : c'.sb.dmaAuto = c.sb.dmaAuto
  left : c'.sb.leftTillIrq = (block - (total + n) % block : Nat)
  head : c'.sb.audioP = c.sb.audioP
  length : c'.sb.queueLength = c.sb.queueLength + n
  room : c.sb.queueLength + n ≤ audioBufLen
  queued : c'.sb.queued = c.sb.queued ++ buf.read c.mem (pos + total) n
  irqs : c'.sb.irqs = c.sb.irqs ++
    if total / block < (total + n) / block then [(c.sb.irq, true)] else []
  stops : c.sb.dmaAuto = false → total / block < (total + n) / block →
    block ∣ total + n ∧ (c'.isa hi).status.getLsbD 5 = false

/-- Channel 1 is at a position of the buffer, and the card has a format and a block size. -/
structure Armed (hi : Bool) (buf : Cyclic) (block pos : Nat) (c : Card) : Prop where
  channel : Channel hi buf c
  used : c.sb.useHdma = hi
  block_pos : 0 < block
  blockSize : c.sb.blockSize = block
  nowCount : ((c.isa hi).regs sbIchan).nowCount = posOf buf pos
  queue : c.sb.queueLength ≤ audioBufLen

/-- Channel 1 plays the buffer: `total` bytes of it, from the position `pos` on. -/
structure Playing (hi : Bool) (buf : Cyclic) (block pos total : Nat) (c : Card) : Prop extends
    Armed hi buf block (pos + total) c where
  left : c.sb.leftTillIrq = (block - total % block : Nat)

section Runs

variable {hi : Bool} {buf : Cyclic} {block pos total n depth : Nat} {c c' c'' : Card}
  {tmpbuf : Nat → Byte}

theorem Idle.trans (h : Idle hi c c') (h' : Idle hi c' c'') : Idle hi c c'' where
  sb := h'.sb.trans h.sb
  mem := h'.mem.trans h.mem
  memSize := h'.memSize.trans h.memSize
  channel := h'.channel.trans h.channel
  dshift := h'.dshift.trans h.dshift
  dreq := h'.dreq.trans h.dreq

theorem Idle.playing (h : Idle hi c c') (hp : Playing hi buf block pos total c) :
    Playing hi buf block pos total c' where
  channel := hp.channel.congr h.channel h.dshift h.memSize
  used := by rw [h.sb, hp.used]
  block_pos := hp.block_pos
  blockSize := by rw [h.sb, hp.blockSize]
  nowCount := by rw [h.channel, hp.nowCount]
  left := by rw [h.sb, hp.left]
  queue := by rw [h.sb]; exact hp.queue

theorem Idle.fetches (h : Idle hi c c') (hp : Playing hi buf block pos total c) :
    Fetches hi buf block pos total 0 c c' where
  mem := h.mem
  memSize := h.memSize
  channel := by rw [h.channel, Nat.add_zero, ← hp.nowCount]
  dshift := h.dshift
  used := by rw [h.sb]
  blockSize := by rw [h.sb]
  auto := by rw [h.sb]
  left := by rw [h.sb, hp.left, Nat.add_zero]
  head := by rw [h.sb]
  length := by rw [h.sb, Nat.add_zero]
  room := hp.queue
  queued := by rw [h.sb]; exact (List.append_nil _).symm
  irqs := by rw [h.sb, Nat.add_zero, if_neg (Nat.lt_irrefl _), List.append_nil]
  stops _ hlt := absurd hlt (Nat.lt_irrefl _)

theorem Fetches.after (h : Fetches hi buf block pos total n c c') (h' : Idle hi c' c'') :
    Fetches hi buf block pos total n c c'' where
  mem := h'.mem.trans h.mem
  memSize := h'.memSize.trans h.memSize
  channel := h'.channel.trans h.channel
  dshift := h'.dshift.trans h.dshift
  used := by rw [h'.sb, h.used]
  blockSize := by rw [h'.sb, h.blockSize]
  auto := by rw [h'.sb, h.auto]
  left := by rw [h'.sb, h.left]
  head := by rw [h'.sb, h.head]
  length := by rw [h'.sb, h.length]
  room := h.room
  queued := by rw [h'.sb, h.queued]
  irqs := by rw [h'.sb, h.irqs]
  stops ha hlt := by
    obtain ⟨hdvd, hdreq⟩ := h.stops ha hlt
    exact ⟨hdvd, h'.dreq.trans hdreq⟩

theorem Idle.before (h : Idle hi c c') (h' : Fetches hi buf block pos total n c' c'') :
    Fetches hi buf block pos total n c c'' where
  mem := h'.mem.trans h.mem
  memSize := h'.memSize.trans h.memSize
  channel := by rw [h'.channel, h.channel]
  dshift := h'.dshift.trans h.dshift
  used := by rw [h'.used, h.sb]
  blockSize := by rw [h'.blockSize, h.sb]
  auto := by rw [h'.auto, h.sb]
  left := h'.left
  head := by rw [h'.head, h.sb]
  length := by rw [h'.length, h.sb]
  room := by rw [← h.sb]; exact h'.room
  queued := by rw [h'.queued, h.sb, h.mem]
  irqs := by rw [h'.irqs, h.sb]
  stops ha := h'.stops (by rw [h.sb, ha])

theorem Fetches.playing (h : Fetches hi buf block pos total n c c')
    {pos' : Nat} (hp : Armed hi buf block pos' c) : Playing hi buf block pos (total + n) c' where
  channel := hp.channel.congr h.channel h.dshift h.memSize
  used := h.used.trans hp.used
  block_pos := hp.block_pos
  blockSize := h.blockSize.trans hp.blockSize
  nowCount := by rw [h.channel, Nat.add_assoc]
  left := h.left
  queue := by rw [h.length]; exact h.room

end Runs

section Handler

variable {hi : Bool} {buf : Cyclic} {block pos total n depth : Nat} {c c' : Card}
  {tmpbuf tmpbuf' : Nat → Byte}

theorem dmaRun_running (h : (c.isa hi).running = true) :
    dmaRun depth tmpbuf hi c = c.rearm hi := by
  cases depth with
  | zero => rfl
  | succ depth => rw [dmaRun, if_pos h]

theorem setIsa_self (c : Card) (hi : Bool) (d : I8257State) : (c.setIsa hi d).isa hi = d :=
  Function.update_self (β := fun _ => I8257State) hi d c.isa

/-- What the count of the blocks and the end of a transfer leave alone. -/
structure Counted (hi : Bool) (c c' : Card) : Prop where
  mem : c'.mem = c.mem
  memSize : c'.memSize = c.memSize
  regs : (c'.isa hi).regs = (c.isa hi).regs
  dshift : (c'.isa hi).dshift = (c.isa hi).dshift
  running : (c'.isa hi).running = (c.isa hi).running
  irq : c'.sb.irq = c.sb.irq
  used : c'.sb.useHdma = c.sb.useHdma
  auto : c'.sb.dmaAuto = c.sb.dmaAuto
  blockSize : c'.sb.blockSize = c.sb.blockSize
  audioP : c'.sb.audioP = c.sb.audioP
  audioQ : c'.sb.audioQ = c.sb.audioQ
  audioBuf : c'.sb.audioBuf = c.sb.audioBuf

theorem Counted.trans {c'' : Card} (h : Counted hi c c') (h' : Counted hi c' c'') :
    Counted hi c c'' where
  mem := h'.mem.trans h.mem
  memSize := h'.memSize.trans h.memSize
  regs := h'.regs.trans h.regs
  dshift := h'.dshift.trans h.dshift
  running := h'.running.trans h.running
  irq := h'.irq.trans h.irq
  used := h'.used.trans h.used
  auto := h'.auto.trans h.auto
  blockSize := h'.blockSize.trans h.blockSize
  audioP := h'.audioP.trans h.audioP
  audioQ := h'.audioQ.trans h.audioQ
  audioBuf := h'.audioBuf.trans h.audioBuf

theorem setLeft_counted (c : Card) (left : Int) : Counted hi c (c.setLeft left) :=
  ⟨rfl, rfl, rfl, rfl, rfl, rfl, rfl, rfl, rfl, rfl, rfl, rfl⟩

theorem setDmaRunning_counted (c : Card) (hold : Bool) : Counted hi c (c.setDmaRunning hold) :=
  ⟨rfl, rfl, rfl, rfl, rfl, rfl, rfl, rfl, rfl, rfl, rfl, rfl⟩

theorem setActiveOut_counted (c : Card) (on : Bool) : Counted hi c (c.setActiveOut on) :=
  ⟨rfl, rfl, rfl, rfl, rfl, rfl, rfl, rfl, rfl, rfl, rfl, rfl⟩

theorem speaker_counted (c : Card) (on : Bool) : Counted hi c (speaker on c) :=
  ⟨rfl, rfl, rfl, rfl, rfl, rfl, rfl, rfl, rfl, rfl, rfl, rfl⟩

theorem interrupt_counted (c : Card) (v : Byte) (level : Bool) :
    Counted hi c ((c.setMixer82 v).setIrq level) :=
  ⟨rfl, rfl, rfl, rfl, rfl, rfl, rfl, rfl, rfl, rfl, rfl, rfl⟩

theorem setIsa_counted {d : I8257State} (hregs : d.regs = (c.isa hi).regs)
    (hdshift : d.dshift = (c.isa hi).dshift) (hrun : d.running = (c.isa hi).running) :
    Counted hi c (c.setIsa hi d) :=
  ⟨rfl, rfl, by rw [setIsa_self, hregs], by rw [setIsa_self, hdshift], by rw [setIsa_self, hrun],
    rfl, rfl, rfl, rfl, rfl, rfl, rfl⟩

theorem rearm_counted (c : Card) : Counted hi c (c.rearm hi) := setIsa_counted rfl rfl rfl

theorem setStatus_counted (c : Card) (status : Byte) : Counted hi c (c.setStatus hi status) :=
  setIsa_counted rfl rfl rfl

theorem control_counted (depth : Nat) (tmpbuf : Nat → Byte) (hused : c.sb.useHdma = hi) (hrun : (c.isa hi).running = true) :
    Counted hi c (control (dmaRun depth tmpbuf) false c) ∧
      (control (dmaRun depth tmpbuf) false c).sb.irqs = c.sb.irqs ∧
      (control (dmaRun depth tmpbuf) false c).sb.leftTillIrq = c.sb.leftTillIrq ∧
      ((control (dmaRun depth tmpbuf) false c).isa hi).status.getLsbD 5 = false := by
  subst hused
  have hbit : (~~~dreqBit).getLsbD 5 = false := rfl
  have hstop : Counted c.sb.useHdma c (c.setDmaRunning false) := setDmaRunning_counted c false
  have hstatus : ∀ status : Byte, Counted c.sb.useHdma c
      ((c.setDmaRunning false).setStatus c.sb.useHdma status) :=
    fun status => hstop.trans (setStatus_counted _ status)
  unfold control
  dsimp only
  rw [dmaRun_running ((hstatus _).running.trans hrun)]
  refine ⟨((hstatus _).trans (rearm_counted _)).trans
    (setActiveOut_counted _ _), rfl, rfl, ?_⟩
  change (((Card.rearm _ _).isa c.sb.useHdma).status).getLsbD 5 = false
  unfold Card.rearm Card.setStatus
  rw [setIsa_self, setIsa_self, if_neg Bool.false_ne_true, BitVec.getLsbD_and, hbit, Bool.and_false]

theorem blockDone_counted (depth : Nat) (tmpbuf : Nat → Byte) (hused : c.sb.useHdma = hi) (hrun : (c.isa hi).running = true) :
    Counted hi c (blockDone (dmaRun depth tmpbuf) hi c) ∧
      (blockDone (dmaRun depth tmpbuf) hi c).sb.irqs = c.sb.irqs ++ [(c.sb.irq, true)] ∧
      (blockDone (dmaRun depth tmpbuf) hi c).sb.leftTillIrq = c.sb.leftTillIrq ∧
      (c.sb.dmaAuto = false →
        ((blockDone (dmaRun depth tmpbuf) hi c).isa hi).status.getLsbD 5 = false) := by
  unfold blockDone
  dsimp only
  generalize hd : (c.setMixer82 (c.sb.mixer82 ||| (if hi then 2 else 1))).setIrq true = d
  have hcounted : Counted hi c d := by
    rw [← hd]
    exact interrupt_counted c _ _
  have hirqs : d.sb.irqs = c.sb.irqs ++ [(c.sb.irq, true)] := by rw [← hd]; rfl
  have hleft : d.sb.leftTillIrq = c.sb.leftTillIrq := by rw [← hd]; rfl
  rw [hcounted.auto]
  by_cases ha : c.sb.dmaAuto = true
  · rw [if_pos ha]
    exact ⟨hcounted, hirqs, hleft, fun h => by rw [h] at ha; cases ha⟩
  · rw [if_neg ha]
    obtain ⟨hctl, hi', hl', hdreq⟩ := control_counted depth tmpbuf
      (hcounted.used.trans hused) (hcounted.running.trans hrun)
    exact ⟨(hcounted.trans hctl).trans (speaker_counted _ _), hi'.trans hirqs, hl'.trans hleft,
      fun _ => hdreq⟩

theorem countBlock_counted (depth : Nat) (tmpbuf : Nat → Byte) (hb : 0 < block) (hsize : c.sb.blockSize = block)
    (hleft : c.sb.leftTillIrq = (block - total % block : Nat)) (hused : c.sb.useHdma = hi)
    (hrun : (c.isa hi).running = true) :
    Counted hi c (countBlock (dmaRun depth tmpbuf) hi n c) ∧
      (countBlock (dmaRun depth tmpbuf) hi n c).sb.leftTillIrq =
        (block - (total + n) % block : Nat) ∧
      ((countBlock (dmaRun depth tmpbuf) hi n c).sb.irqs = c.sb.irqs ++
        if total / block < (total + n) / block then [(c.sb.irq, true)] else []) ∧
      (c.sb.dmaAuto = false → total / block < (total + n) / block →
        ((countBlock (dmaRun depth tmpbuf) hi n c).isa hi).status.getLsbD 5 = false) := by
  have hends := block_ends total n hb
  have hmod := Nat.mod_lt total hb
  have hcount : c.sb.leftTillIrq - n = block - (total % block + n : Nat) := by
    rw [hleft, left_eq hb]
  -- The loop at the end, after either branch.
  have hlast : ∀ d : Card, Counted hi c d → d.sb.leftTillIrq = c.sb.leftTillIrq - n →
      ∃ left, (if h : 0 < d.sb.blockSize then
          d.setLeft (nextBlock d.sb.blockSize d.sb.leftTillIrq h) else d) = d.setLeft left ∧
        left = (block - (total + n) % block : Nat) := by
    intro d hd hl
    have hbd : d.sb.blockSize = block := hd.blockSize.trans hsize
    rw [hl, hcount, hbd, dif_pos (by omega), nextBlock_eq, Nat.mod_add_mod]
    exact ⟨_, rfl, rfl⟩
  unfold countBlock
  dsimp only
  have hset : (c.setLeft (c.sb.leftTillIrq - n)).sb.leftTillIrq = c.sb.leftTillIrq - n := rfl
  by_cases hlt : total / block < (total + n) / block
  · have hle := hends.mpr hlt
    obtain ⟨hdone, hirqs, hl, hstop⟩ := blockDone_counted depth tmpbuf
      (c := c.setLeft (c.sb.leftTillIrq - n)) hused hrun
    obtain ⟨left, hend, hleft'⟩ := hlast _ ((setLeft_counted c _).trans hdone) (hl.trans hset)
    rw [if_pos (by rw [hset, hcount]; omega), hend, if_pos hlt]
    exact ⟨((setLeft_counted c _).trans hdone).trans (setLeft_counted _ _), hleft', hirqs,
      fun ha _ => hstop ha⟩
  · have hgt : ¬block - total % block ≤ n := fun h => hlt (hends.mp h)
    obtain ⟨left, hend, hleft'⟩ := hlast _ (setLeft_counted c _) hset
    rw [if_neg (by rw [hset, hcount]; omega), hend, if_neg hlt]
    exact ⟨(setLeft_counted c _).trans (setLeft_counted _ _), hleft',
      (List.append_nil _).symm, fun _ h => absurd h hlt⟩

theorem Counted.queueLength (h : Counted hi c c') : c'.sb.queueLength = c.sb.queueLength := by
  unfold Sb16.queueLength
  rw [h.audioP, h.audioQ]

theorem Counted.queued (h : Counted hi c c') : c'.sb.queued = c.sb.queued := by
  unfold Sb16.queued
  rw [h.queueLength, h.audioP, h.audioBuf]

theorem setNowCount_channel (c : Card) (n : Int) :
    ((c.setNowCount hi sbIchan n).isa hi).regs sbIchan = { (c.isa hi).regs sbIchan with nowCount := n } := by
  unfold Card.setNowCount
  rw [setIsa_self]
  exact Function.update_self (β := fun _ => I8257Regs) sbIchan _ (c.isa hi).regs

theorem setNowCount_dshift (c : Card) (ichan : Fin 4) (n : Int) :
    ((c.setNowCount hi ichan n).isa hi).dshift = (c.isa hi).dshift := by
  unfold Card.setNowCount
  rw [setIsa_self]

theorem setNowCount_status (c : Card) (ichan : Fin 4) (n : Int) :
    ((c.setNowCount hi ichan n).isa hi).status = (c.isa hi).status := by
  unfold Card.setNowCount
  rw [setIsa_self]

theorem setNowCount_idle (c : Card) :
    Idle hi c (c.setNowCount hi sbIchan ((c.isa hi).regs sbIchan).nowCount) :=
  ⟨rfl, rfl, rfl, setNowCount_channel c _, setNowCount_dshift c sbIchan _,
    congrArg (BitVec.getLsbD · 5) (setNowCount_status c sbIchan _)⟩

theorem block_dvd (hb : 0 < block) (hle : n ≤ block - total % block)
    (hlt : total / block < (total + n) / block) : block ∣ total + n := by
  have hend := (block_ends total n hb).mpr hlt
  have hmod := Nat.mod_lt total hb
  have hsum := Nat.div_add_mod total block
  refine ⟨total / block + 1, ?_⟩
  rw [Nat.mul_add, Nat.mul_one]
  omega

/-- The bytes that were copied are counted. -/
theorem Queues.fetches {s' : Sb16} (depth : Nat) (tmpbuf : Nat → Byte)
    (hs' : Queues (buf.read c.mem (pos + total) n) c.sb s')
    (hp : Playing hi buf block pos total c) (hrun : (c.isa hi).running = true)
    (hn : n ≤ c.sb.room) (hcut : c.sb.dmaAuto = false → (n : Int) ≤ c.sb.leftTillIrq) :
    Fetches hi buf block pos total n c
      ((countBlock (dmaRun depth tmpbuf) hi n { c with sb := s' }).setNowCount hi sbIchan
        (posOf buf (pos + total + n))) := by
  have hb := hp.block_pos
  have hleft := hp.left
  have hqueue := hp.queue
  have hroom := room_eq hqueue
  have hlength := hs'.length
  rw [Cyclic.length_read] at hlength
  have hblock : s'.blockSize = c.sb.blockSize := by rw [hs'.frame]
  have hcount : s'.leftTillIrq = c.sb.leftTillIrq := by rw [hs'.frame]
  have hused : s'.useHdma = c.sb.useHdma := by rw [hs'.frame]
  have hauto : s'.dmaAuto = c.sb.dmaAuto := by rw [hs'.frame]
  have hhead : s'.audioP = c.sb.audioP := by rw [hs'.frame]
  have hirq : s'.irq = c.sb.irq := by rw [hs'.frame]
  have hlog : s'.irqs = c.sb.irqs := by rw [hs'.frame]
  obtain ⟨hcounted, hl, hirqs, hstops⟩ := countBlock_counted (n := n) depth tmpbuf hb
    (c := { c with sb := s' }) (hblock.trans hp.blockSize) (hcount.trans hleft)
    (hused.trans hp.used) hrun
  exact
    { mem := hcounted.mem
      memSize := hcounted.memSize
      channel := by rw [setNowCount_channel, hcounted.regs]
      dshift := (setNowCount_dshift _ _ _).trans hcounted.dshift
      used := hcounted.used.trans hused
      blockSize := hcounted.blockSize.trans hblock
      auto := hcounted.auto.trans hauto
      left := hl
      head := hcounted.audioP.trans hhead
      length := hcounted.queueLength.trans hlength
      room := by omega
      queued := hcounted.queued.trans hs'.queued
      irqs := by
        refine hirqs.trans ?_
        change s'.irqs ++ (if _ then [(s'.irq, true)] else []) = _
        rw [hlog, hirq]
      stops := fun ha hlt => by
        have hdreq := hstops (hauto.trans ha) hlt
        have hcut := hcut ha
        rw [setNowCount_status]
        exact ⟨block_dvd hb (by omega) hlt, hdreq⟩ }

/-- The handler on channel 1, and the position that the controller gets from it. -/
theorem sbReadDma_fetches (depth : Nat) (tmpbuf tmpbuf' : Nat → Byte)
    (hp : Playing hi buf block pos total c) (hrun : (c.isa hi).running = true) :
    ∃ n d, sbReadDma (dmaRun depth tmpbuf) hi tmpbuf' (posOf buf (pos + total)) buf.size c =
        (d, posOf buf (pos + total + n)) ∧
      Fetches hi buf block pos total n c (d.setNowCount hi sbIchan (posOf buf (pos + total + n))) := by
  have hb := hp.block_pos
  have hmod := Nat.mod_lt total hb
  have hsize := buf.size_pos
  have hleft := hp.left
  have hsame : c.setLeft (if c.sb.leftTillIrq < 0 then c.sb.blockSize else c.sb.leftTillIrq) =
      c := by
    rw [if_neg (by omega)]
    rfl
  unfold sbReadDma
  dsimp only
  rw [hsame, if_neg (by rw [hp.blockSize]; omega)]
  have hkeep : (if c.sb.leftTillIrq < 0 then c.sb.blockSize else c.sb.leftTillIrq) =
      c.sb.leftTillIrq := if_neg (by omega)
  rw [hkeep]
  split
  · refine ⟨0, c, ?_, ?_⟩
    · rw [Nat.add_zero]
    · rw [Nat.add_zero, ← hp.nowCount]
      exact (setNowCount_idle c).fetches hp
  · rename_i hsome
    generalize hfree : (if c.sb.voice = true then (c.sb.audioFree &&& ~~~c.sb.align).toInt
      else (buf.size : Int)) = free
    have hfree_pos : 0 < free := by
      rw [← hfree]
      split
      · rename_i hvoice
        by_contra hle
        exact hsome ⟨hvoice, .inl (by omega)⟩
      · omega
    generalize htemp : (if c.sb.leftTillIrq ≤ free ∧ c.sb.dmaAuto = false then c.sb.leftTillIrq
      else free) = temp
    have htemp_pos : 0 < temp := by
      rw [← htemp]
      split <;> omega
    have htemp_le : c.sb.dmaAuto = false → temp ≤ c.sb.leftTillIrq := by
      intro ha
      rw [← htemp]
      split <;> rename_i h
      · exact Int.le_refl _
      · have hlt : ¬c.sb.leftTillIrq ≤ free := fun hle => h ⟨hle, ha⟩
        omega
    obtain ⟨s', hs', hwrite⟩ := writeAudio_queues c tmpbuf' (pos + total) temp 0 hp.channel hp.queue
      (Int.le_of_lt htemp_pos)
    generalize hn : min temp.toNat c.sb.room = n at hs' hwrite
    have hcut : c.sb.dmaAuto = false → (n : Int) ≤ c.sb.leftTillIrq := by
      intro ha
      have hle := htemp_le ha
      omega
    rw [hwrite, Int.zero_add, posOf_add]
    exact ⟨n, _, rfl, hs'.fetches depth tmpbuf hp hrun (by omega) hcut⟩

/-- Channel 1 is run. Its position stays below the size of the buffer. -/
theorem channelRun_fetches (depth : Nat) (tmpbuf tmpbuf' : Nat → Byte)
    (hp : Playing hi buf block pos total c) (hrun : (c.isa hi).running = true) :
    ∃ n, Fetches hi buf block pos total n c
      (channelRun (dmaRun depth tmpbuf) hi tmpbuf' sbIchan c) := by
  obtain ⟨n, d, hread, hd⟩ := sbReadDma_fetches depth tmpbuf tmpbuf' hp hrun
  have hlt : (pos + total + n) % buf.size < buf.size := Nat.mod_lt _ buf.size_pos
  have hshort : ¬posOf buf (pos + total + n) = buf.size := by
    unfold posOf
    omega
  refine ⟨n, ?_⟩
  unfold channelRun
  dsimp only
  rw [hp.channel.size, hp.nowCount, if_pos rfl, hread, if_neg hshort]
  exact hd

theorem channelRun_idle (run : Bool → Card → Card) {ichan : Fin 4} (h : ichan ≠ sbIchan) :
    Idle hi c (channelRun run hi tmpbuf ichan c) ∧
      ((channelRun run hi tmpbuf ichan c).isa hi).running = (c.isa hi).running := by
  have hset : ∀ n, Idle hi c (c.setNowCount hi ichan n) ∧
      ((c.setNowCount hi ichan n).isa hi).running = (c.isa hi).running := by
    intro n
    refine ⟨⟨rfl, rfl, rfl, ?_, setNowCount_dshift c ichan n,
      congrArg (BitVec.getLsbD · 5) (setNowCount_status c ichan n)⟩, ?_⟩
    · unfold Card.setNowCount
      rw [setIsa_self]
      exact Function.update_of_ne (β := fun _ => I8257Regs) (Ne.symm h) _ (c.isa hi).regs
    · unfold Card.setNowCount
      rw [setIsa_self]
  unfold channelRun
  dsimp only
  rw [if_neg h]
  dsimp only
  generalize ((c.isa hi).regs ichan).nowCount = n
  split
  · obtain ⟨hidle, hrunning⟩ := hset n
    have hbit : ∀ k : Fin 4, ((1 : Byte) <<< k.val).getLsbD 5 = false := by decide
    refine ⟨hidle.trans ⟨rfl, rfl, rfl, ?_, ?_, ?_⟩, ?_⟩ <;> unfold Card.setStatus <;>
      rw [setIsa_self]
    · rw [BitVec.getLsbD_or, hbit ichan, Bool.or_false]
    · exact hrunning
  · exact hset n

theorem turn_idle (run : Bool → Card → Card) (hi : Bool) (tmpbuf : Nat → Byte) (c : Card) (b : Bool)
    (ichan : Fin 4) (h : ichan ≠ sbIchan) :
    Idle hi c (turn run hi tmpbuf (c, b) ichan).1 ∧
      ((turn run hi tmpbuf (c, b) ichan).1.isa hi).running = (c.isa hi).running := by
  unfold turn
  dsimp only
  split
  · exact channelRun_idle run h
  · exact ⟨⟨rfl, rfl, rfl, rfl, rfl, rfl⟩, rfl⟩

theorem turn_fetches (depth : Nat) (tmpbuf tmpbuf' : Nat → Byte) (b : Bool)
    (hp : Playing hi buf block pos total c) (hrun : (c.isa hi).running = true) :
    ∃ n, Fetches hi buf block pos total n c
      (turn (dmaRun depth tmpbuf) hi tmpbuf' (c, b) sbIchan).1 := by
  unfold turn
  dsimp only
  split
  · exact channelRun_fetches depth tmpbuf tmpbuf' hp hrun
  · have hsame : Idle hi c c := ⟨rfl, rfl, rfl, rfl, rfl, rfl⟩
    exact ⟨0, hsame.fetches hp⟩

theorem setRunning_idle (c : Card) (running : Bool) : Idle hi c (c.setRunning hi running) := by
  refine ⟨rfl, rfl, rfl, ?_, ?_, ?_⟩ <;> unfold Card.setRunning <;> rw [setIsa_self]

theorem rearm_idle (c : Card) : Idle hi c (c.rearm hi) := by
  refine ⟨rfl, rfl, rfl, ?_, ?_, ?_⟩ <;> unfold Card.rearm <;> rw [setIsa_self]

theorem finRange_four : List.finRange 4 = [0, sbIchan, 2, 3] := rfl

theorem dmaRun_fetches (depth : Nat) (tmpbuf : Nat → Byte)
    (hp : Playing hi buf block pos total c) :
    ∃ n, Fetches hi buf block pos total n c (dmaRun depth tmpbuf hi c) := by
  have hrearm : Fetches hi buf block pos total 0 c (c.rearm hi) := (rearm_idle c).fetches hp
  cases depth with
  | zero => exact ⟨0, hrearm⟩
  | succ depth =>
    rw [dmaRun]
    split
    · exact ⟨0, hrearm⟩
    · have hrun : ((c.setRunning hi true).isa hi).running = true := by
        unfold Card.setRunning
        rw [setIsa_self]
      have hset : Idle hi c (c.setRunning hi true) := setRunning_idle c true
      rw [finRange_four, List.foldl_cons, List.foldl_cons, List.foldl_cons, List.foldl_cons,
        List.foldl_nil]
      generalize c.setRunning hi true = c₁ at *
      dsimp only
      -- Only channel 1 does anything.
      obtain ⟨h0, hrun0⟩ := turn_idle (dmaRun depth tmpbuf) hi tmpbuf c₁ false 0 (by decide)
      generalize turn (dmaRun depth tmpbuf) hi tmpbuf (c₁, false) 0 = r₀ at *
      obtain ⟨c₂, b₀⟩ := r₀
      have hbefore := hset.trans h0
      obtain ⟨n, h1⟩ := turn_fetches depth tmpbuf tmpbuf b₀ (hbefore.playing hp)
        (hrun0.trans hrun)
      have hfetch := hbefore.before h1
      generalize turn (dmaRun depth tmpbuf) hi tmpbuf (c₂, b₀) sbIchan = r₁ at *
      obtain ⟨c₃, b₁⟩ := r₁
      have h2 := (turn_idle (dmaRun depth tmpbuf) hi tmpbuf c₃ b₁ 2 (by decide)).1
      generalize turn (dmaRun depth tmpbuf) hi tmpbuf (c₃, b₁) 2 = r₂ at *
      obtain ⟨c₄, b₂⟩ := r₂
      have h3 := (turn_idle (dmaRun depth tmpbuf) hi tmpbuf c₄ b₂ 3 (by decide)).1
      generalize turn (dmaRun depth tmpbuf) hi tmpbuf (c₄, b₂) 3 = r₃ at *
      refine ⟨n, ?_⟩
      have hend := ((hfetch.after h2).after h3).after (setRunning_idle r₃.1 false)
      split
      · exact hend.after (rearm_idle _)
      · exact hend

end Handler

/-- `n` bytes are taken off the queue. -/
structure Takes (n : Nat) (s s' : Sb16) : Prop where
  frame : s' = { s with audioFree := s'.audioFree, audioP := s.audioP + BitVec.ofNat 32 n }
  le : n ≤ s.queueLength

section Output

variable {s s' : Sb16} {n : Nat}

theorem Takes.length (h : Takes n s s') : s'.queueLength = s.queueLength - n := by
  have hle := h.le
  unfold Sb16.queueLength at *
  rw [h.frame]
  change (s.audioQ - (s.audioP + BitVec.ofNat 32 n)).toNat = _
  rw [BitVec.toNat_sub, BitVec.toNat_add, BitVec.toNat_ofNat]
  rw [BitVec.toNat_sub] at hle ⊢
  omega

theorem Takes.queued (h : Takes n s s') : s'.queued = s.queued.drop n := by
  have hlen := h.length
  have hle := h.le
  have hsplit : s.queueLength = n + s'.queueLength := by omega
  have hbuf : s'.audioBuf = s.audioBuf := by rw [h.frame]
  have hhead : s'.audioP = s.audioP + BitVec.ofNat 32 n := by rw [h.frame]
  unfold Sb16.queued
  conv_rhs => rw [hsplit, Cyclic.read_add]
  rw [List.drop_left' (Cyclic.length_read audioRing _ _ _), hbuf, hhead]
  exact Cyclic.read_congr_mod (counter_mod s.audioP n) s.audioBuf s'.queueLength

theorem resampleLoop_le (x : Input) (olen os : Nat) (is : Int) (i j uc : Nat) (dc : Int) :
    (resampleLoop x olen os is i j uc dc).2 ≤ max i x.ilen := by
  fun_induction resampleLoop x olen os is i j uc dc with
  | case1 i j uc dc hcond out j' dc' hlast r ih =>
    have hstep := x.step_pos
    exact ih.trans (by omega)
  | case2 i j uc dc hcond out j' dc' hlast r ih => exact ih
  | case3 i j uc dc hcond => exact Nat.le_max_left _ _

theorem resample_le (x : Input) (olen os freq : Nat) : (resample x olen os freq).2 ≤ x.ilen := by
  have hle := resampleLoop_le x olen (os / Nat.gcd os freq) (freq / Nat.gcd os freq : Nat) 0 0
    (os / Nat.gcd os freq) (freq / Nat.gcd os freq : Nat)
  rw [Nat.zero_max] at hle
  exact hle

theorem input_le {x : Input} {size len : Nat} (h : s.input len = some (x, size)) :
    x.ilen * size ≤ len := by
  unfold Sb16.input at h
  split at h
  · cases h
    exact Nat.div_mul_le_self len 2
  · cases h
    exact Nat.div_mul_le_self len 2
  · cases h
    exact Nat.le_of_eq (Nat.mul_one len)
  · cases h

theorem audioCallback_takes (free : Nat) (h : s.queueLength ≤ audioBufLen) :
    ∃ n, Takes n s (audioCallback free s).1 := by
  unfold audioCallback
  dsimp only
  split
  · exact ⟨0, by rw [BitVec.add_zero], Nat.zero_le _⟩
  · have hlen : ¬audioBufLen < (s.audioQ - s.audioP).toNat := Nat.not_lt_of_le h
    rw [if_neg hlen]
    split
    · rename_i x size hx
      refine ⟨_, rfl, ?_⟩
      exact (Nat.mul_le_mul_right size (resample_le x _ _ _)).trans (input_le hx)
    · refine ⟨s.queueLength, ?_, Nat.le_refl _⟩
      have hall : s.audioP + BitVec.ofNat 32 s.queueLength = s.audioQ := by
        unfold Sb16.queueLength
        rw [BitVec.ofNat_toNat, BitVec.setWidth_eq, BitVec.add_comm, BitVec.sub_add_cancel]
      rw [hall]

end Output

end Winspire.Sound
