import Winspire.Sound.Stream

/-!
# Playing a buffer of the guest

A transfer is started, the controllers run, the output takes samples, and the guest works, in any
order. Every byte that is fetched reaches the output once and in its turn.
-/

namespace Winspire.Sound

set_option autoImplicit false

section Start

variable {hi : Bool} {buf : Cyclic} {block pos total n : Nat} {c c' d : Card}

theorem startTransfer_playing (ha : Armed hi buf block pos c) (voice : Bool) (status : Byte) :
    Playing hi buf block pos 0
      (Card.setStatus { c with sb := { c.sb with
        leftTillIrq := c.sb.blockSize, voice := voice, dmaRunning := true } } hi status) where
  channel := by
    apply ha.channel.congr (n := ((c.isa hi).regs sbIchan).nowCount)
    · rw [Card.setStatus, setIsa_self]
    · rw [Card.setStatus, setIsa_self]
    · rfl
  used := ha.used
  block_pos := ha.block_pos
  blockSize := ha.blockSize
  nowCount := by rw [Card.setStatus, setIsa_self]; exact ha.nowCount
  left := by
    rw [Nat.zero_mod, Nat.sub_zero]
    exact ha.blockSize
  queue := ha.queue

theorem startTransfer_fetches (sounds : Bool) (tmpbuf : Nat → Byte) (ha : Armed hi buf block pos c) :
    ∃ n, Fetches hi buf block pos 0 n c (startTransfer (dmaRun 2 tmpbuf) sounds c) := by
  have hstart : ∀ voice status, ∃ n, Fetches hi buf block pos 0 n c
      (speaker true ((dmaRun 2 tmpbuf hi (Card.setStatus { c with sb := { c.sb with
        leftTillIrq := c.sb.blockSize, voice := voice, dmaRunning := true } } hi
          status)).setActiveOut true)) := by
    intro voice status
    obtain ⟨n, h⟩ := dmaRun_fetches 2 tmpbuf (startTransfer_playing ha voice status)
    generalize dmaRun 2 tmpbuf hi _ = d at h ⊢
    refine ⟨n, ?_⟩
    exact
      { mem := h.mem
        memSize := h.memSize
        channel := by
          refine h.channel.trans ?_
          rw [Card.setStatus, setIsa_self]
        dshift := by
          refine h.dshift.trans ?_
          rw [Card.setStatus, setIsa_self]
        used := h.used
        blockSize := h.blockSize
        auto := h.auto
        left := h.left
        head := h.head
        length := h.length
        room := h.room
        queued := h.queued
        irqs := h.irqs
        stops := h.stops }
  have hused := ha.used
  subst hused
  unfold startTransfer
  dsimp only
  split
  · exact hstart true _
  · exact hstart c.sb.voice _

theorem shiftBlock_pos {n : Int} (by1 : Bool) (h : 0 < n) : 0 < shiftBlock n by1 := by
  unfold shiftBlock
  split <;> omega

/-- A command of the card starts a run at the place where the channel is. -/
theorem dmaCmd_starts (tmpbuf : Nat → Byte) (cmd d0 : Byte) (len : Nat)
    (h : Channel (decide (cmd < 0xc0)) buf c)
    (hpos : ((c.isa (decide (cmd < 0xc0))).regs sbIchan).nowCount = posOf buf pos)
    (hq : c.sb.queueLength ≤ audioBufLen) :
    ∃ c₀ sounds, Armed (decide (cmd < 0xc0)) buf c₀.sb.blockSize.toNat pos c₀ ∧
      c₀.sb.queued = c.sb.queued ∧
      dmaCmd (dmaRun 2 tmpbuf) cmd d0 len c = startTransfer (dmaRun 2 tmpbuf) sounds c₀ := by
  have hsize : ∀ wide auto stereo : Bool,
      0 < if auto then shiftBlock (len + 1) wide else shiftBlock (shiftBlock (len + 1) wide) stereo := by
    intro wide auto stereo
    have hlen := shiftBlock_pos wide (show (0 : Int) < len + 1 by omega)
    split
    · exact hlen
    · exact shiftBlock_pos stereo hlen
  refine ⟨_, _, ?_, ?_, rfl⟩
  · exact
      { channel := ⟨h.transfers, h.up, h.base, h.size, h.mem, h.word⟩
        used := rfl
        block_pos := Int.pos_iff_toNat_pos.mp (hsize _ _ _)
        blockSize := (Int.toNat_of_nonneg (Int.le_of_lt (hsize _ _ _))).symm
        nowCount := hpos
        queue := hq }
  · rfl

theorem dmaCmd8_starts (tmpbuf : Nat → Byte) (auto : Bool) {len : Int} (hlen : 0 < len)
    (h : Channel false buf c) (hpos : ((c.isa false).regs sbIchan).nowCount = posOf buf pos)
    (hq : c.sb.queueLength ≤ audioBufLen) :
    ∃ c₀ sounds, Armed false buf c₀.sb.blockSize.toNat pos c₀ ∧ c₀.sb.queued = c.sb.queued ∧
      dmaCmd8 (dmaRun 2 tmpbuf) auto (some len) c = startTransfer (dmaRun 2 tmpbuf) sounds c₀ := by
  refine ⟨_, _, ?_, ?_, rfl⟩
  · exact
      { channel := ⟨h.transfers, h.up, h.base, h.size, h.mem, h.word⟩
        used := rfl
        block_pos := Int.pos_iff_toNat_pos.mp (shiftBlock_pos _ hlen)
        blockSize := (Int.toNat_of_nonneg (Int.le_of_lt (shiftBlock_pos _ hlen))).symm
        nowCount := hpos
        queue := hq }
  · rfl

end Start

/-- A run of the controller: what it has put into the queue, from the memory that it has found, and
what it has told the interrupt line. -/
structure Fetch where
  mem : Nat → Byte
  bytes : List Byte
  irq : Nat
  irqs : List (Nat × Bool)
  dreq : Bool

def fetchOf (hi : Bool) (c c' : Card) : Fetch where
  mem := c.mem
  bytes := c'.sb.queued.drop c.sb.queueLength
  irq := c.sb.irq
  irqs := c'.sb.irqs.drop c.sb.irqs.length
  dreq := (c'.isa hi).status.getLsbD 5

def takenBy (s s' : Sb16) : List Byte := s.queued.take (s'.audioP - s.audioP).toNat

/-- What else happens does not touch the channel, the queue or the count of the block. The guest
may write any memory and use the interrupt controller, the mixer and the other channels, and it may
stop the transfer and let it go on. -/
structure Elsewhere (hi : Bool) (c c' : Card) : Prop where
  channel : (c'.isa hi).regs sbIchan = (c.isa hi).regs sbIchan
  dshift : (c'.isa hi).dshift = (c.isa hi).dshift
  memSize : c'.memSize = c.memSize
  used : c'.sb.useHdma = c.sb.useHdma
  auto : c'.sb.dmaAuto = c.sb.dmaAuto
  blockSize : c'.sb.blockSize = c.sb.blockSize
  left : c'.sb.leftTillIrq = c.sb.leftTillIrq
  audioP : c'.sb.audioP = c.sb.audioP
  audioQ : c'.sb.audioQ = c.sb.audioQ
  audioBuf : c'.sb.audioBuf = c.sb.audioBuf

/-- The fetches of a run, and the bytes that the output has taken. -/
inductive SoundRun (hi : Bool) (c₀ : Card) : List Fetch → List Byte → Card → Prop
  | start (sounds : Bool) (tmpbuf : Nat → Byte) :
    SoundRun hi c₀ [fetchOf hi c₀ (startTransfer (dmaRun 2 tmpbuf) sounds c₀)] []
      (startTransfer (dmaRun 2 tmpbuf) sounds c₀)
  | dma {fs : List Fetch} {out : List Byte} {c : Card} (tmpbuf : Nat → Byte)
    (run : SoundRun hi c₀ fs out c) :
    SoundRun hi c₀ (fs ++ [fetchOf hi c (i8257DmaRun tmpbuf hi c)]) out (i8257DmaRun tmpbuf hi c)
  | callback {fs : List Fetch} {out : List Byte} {c : Card} (free : Nat)
    (run : SoundRun hi c₀ fs out c) :
    SoundRun hi c₀ fs (out ++ takenBy c.sb (audioCallback free c.sb).1)
      { c with sb := (audioCallback free c.sb).1 }
  | elsewhere {fs : List Fetch} {out : List Byte} {c c' : Card} (h : Elsewhere hi c c')
    (run : SoundRun hi c₀ fs out c) : SoundRun hi c₀ fs out c'

/-- A fetch goes on where the last one has ended, after `total` bytes. It interrupts when it
completes a block, and a transfer without `dma_auto` ends there. -/
structure Fetch.InOrder (buf : Cyclic) (block pos : Nat) (auto : Bool) (total : Nat)
    (f : Fetch) : Prop where
  bytes : f.bytes = buf.read f.mem (pos + total) f.bytes.length
  irqs : f.irqs =
    if total / block < (total + f.bytes.length) / block then [(f.irq, true)] else []
  stops : auto = false → total / block < (total + f.bytes.length) / block →
    block ∣ total + f.bytes.length ∧ f.dreq = false

section Runs

variable {hi : Bool} {buf : Cyclic} {block pos total n : Nat} {c₀ c c' : Card} {fs : List Fetch}
  {out : List Byte}

theorem Fetches.bytes_eq (h : Fetches hi buf block pos total n c c') :
    (fetchOf hi c c').bytes = buf.read c.mem (pos + total) n := by
  have hlen : c.sb.queued.length = c.sb.queueLength := Cyclic.length_read audioRing _ _ _
  unfold fetchOf
  dsimp only
  rw [h.queued]
  exact List.drop_left' hlen

theorem Fetches.inOrder (h : Fetches hi buf block pos total n c c') :
    (fetchOf hi c c').InOrder buf block pos c.sb.dmaAuto total := by
  have hlen : (fetchOf hi c c').bytes.length = n := by
    rw [h.bytes_eq, Cyclic.length_read]
  refine ⟨?_, ?_, ?_⟩
  · rw [hlen]
    exact h.bytes_eq
  · rw [hlen]
    unfold fetchOf
    dsimp only
    rw [h.irqs]
    exact List.drop_left' rfl
  · rw [hlen]
    exact h.stops

theorem Elsewhere.playing (h : Elsewhere hi c c') (hp : Playing hi buf block pos total c) :
    Playing hi buf block pos total c' where
  channel := hp.channel.congr h.channel h.dshift h.memSize
  used := h.used.trans hp.used
  block_pos := hp.block_pos
  blockSize := h.blockSize.trans hp.blockSize
  nowCount := by rw [h.channel]; exact hp.nowCount
  left := h.left.trans hp.left
  queue := by
    unfold Sb16.queueLength
    rw [h.audioP, h.audioQ]
    exact hp.queue

theorem Elsewhere.queued (h : Elsewhere hi c c') : c'.sb.queued = c.sb.queued := by
  unfold Sb16.queued Sb16.queueLength
  rw [h.audioP, h.audioQ, h.audioBuf]

theorem Takes.playing {s' : Sb16} (h : Takes n c.sb s')
    (hp : Playing hi buf block pos total c) :
    Playing hi buf block pos total { c with sb := s' } where
  channel := ⟨hp.channel.transfers, hp.channel.up, hp.channel.base, hp.channel.size,
    hp.channel.mem, hp.channel.word⟩
  used := by rw [h.frame]; exact hp.used
  block_pos := hp.block_pos
  blockSize := by rw [h.frame]; exact hp.blockSize
  nowCount := hp.nowCount
  left := by rw [h.frame]; exact hp.left
  queue := by
    have hle := hp.queue
    rw [h.length]
    omega

theorem Takes.takenBy_append {s s' : Sb16} (h : Takes n s s') :
    takenBy s s' ++ s'.queued = s.queued := by
  have hcount : (s'.audioP - s.audioP).toNat = n := by
    have hle := h.le
    have hlt := (s.audioQ - s.audioP).isLt
    unfold Sb16.queueLength at hle
    rw [h.frame]
    change (s.audioP + BitVec.ofNat 32 n - s.audioP).toNat = n
    rw [BitVec.add_comm, BitVec.add_sub_cancel, BitVec.toNat_ofNat]
    omega
  rw [takenBy, hcount, h.queued, List.take_append_drop]

def fetched (fs : List Fetch) : List Byte := fs.flatMap Fetch.bytes

theorem fetched_concat (fs : List Fetch) (f : Fetch) :
    fetched (fs ++ [f]) = fetched fs ++ f.bytes := by
  unfold fetched
  rw [List.flatMap_append, List.flatMap_singleton]

structure SoundInv (hi : Bool) (buf : Cyclic) (block pos : Nat) (c₀ : Card) (fs : List Fetch)
    (out : List Byte) (c : Card) : Prop where
  playing : Playing hi buf block pos (fetched fs).length c
  auto : c.sb.dmaAuto = c₀.sb.dmaAuto
  stream : c₀.sb.queued ++ fetched fs = out ++ c.sb.queued
  inOrder : ∀ before f after, fs = before ++ f :: after →
    f.InOrder buf block pos c₀.sb.dmaAuto (fetched before).length

theorem prefix_concat {α : Type} (xs : List α) {before after : List α} {x y : α}
    (h : xs ++ [x] = before ++ y :: after) :
    (before = xs ∧ y = x) ∨ ∃ after', xs = before ++ y :: after' := by
  rcases List.eq_nil_or_concat after with hnil | ⟨after', z, hconcat⟩
  · subst hnil
    obtain ⟨hxs, hx⟩ := List.append_inj' h rfl
    exact .inl ⟨hxs.symm, (List.cons.inj hx).1.symm⟩
  · subst hconcat
    rw [List.concat_eq_append, ← List.cons_append, ← List.append_assoc] at h
    obtain ⟨hxs, -⟩ := List.append_inj' h rfl
    exact .inr ⟨after', hxs⟩

theorem SoundInv.dma (h : SoundInv hi buf block pos c₀ fs out c)
    (hf : Fetches hi buf block pos (fetched fs).length n c c') :
    SoundInv hi buf block pos c₀ (fs ++ [fetchOf hi c c']) out c' where
  playing := by
    rw [fetched_concat, List.length_append, hf.bytes_eq, Cyclic.length_read]
    exact hf.playing h.playing.toArmed
  auto := hf.auto.trans h.auto
  stream := by
    rw [fetched_concat, ← List.append_assoc, h.stream, List.append_assoc, hf.bytes_eq, hf.queued]
  inOrder before f after hsplit := by
    rcases prefix_concat fs hsplit with ⟨hbefore, hlast⟩ | ⟨after', hinside⟩
    · rw [hbefore, hlast, ← h.auto]
      exact hf.inOrder
    · exact h.inOrder before f after' hinside

theorem SoundRun.inv (ha : Armed hi buf block pos c₀) (h : SoundRun hi c₀ fs out c) :
    SoundInv hi buf block pos c₀ fs out c := by
  induction h with
  | start sounds tmpbuf =>
    obtain ⟨n, hf⟩ := startTransfer_fetches sounds tmpbuf ha
    exact
      { playing := by
          rw [fetched, List.flatMap_singleton, hf.bytes_eq, Cyclic.length_read, ← Nat.zero_add n]
          exact hf.playing ha
        auto := hf.auto
        stream := by
          rw [fetched, List.flatMap_singleton, hf.bytes_eq, hf.queued, List.nil_append]
        inOrder := fun before f after hsplit => by
          rcases prefix_concat [] hsplit with ⟨hbefore, hlast⟩ | ⟨after', hinside⟩
          · rw [hbefore, hlast]
            exact hf.inOrder
          · cases before <;> cases hinside }
  | dma tmpbuf run ih =>
    obtain ⟨n, hf⟩ := dmaRun_fetches 2 tmpbuf ih.playing
    exact ih.dma hf
  | callback free run ih =>
    obtain ⟨n, ht⟩ := audioCallback_takes free ih.playing.queue
    exact
      { playing := ht.playing ih.playing
        auto := by rw [ht.frame]; exact ih.auto
        stream := by rw [List.append_assoc, ht.takenBy_append, ih.stream]
        inOrder := ih.inOrder }
  | elsewhere h run ih =>
    exact
      { playing := h.playing ih.playing
        auto := h.auto.trans ih.auto
        stream := by rw [h.queued, ih.stream]
        inOrder := ih.inOrder }

/-- What was in the queue and then all that has been fetched is what the output has taken and what
still waits. The fetches go round the buffer without a gap, and each block that they complete
raises the interrupt. -/
theorem sound_in_order (ha : Armed hi buf block pos c₀) (h : SoundRun hi c₀ fs out c) :
    c₀.sb.queued ++ fetched fs = out ++ c.sb.queued ∧ c.sb.queueLength ≤ audioBufLen ∧
      ∀ before f after, fs = before ++ f :: after →
        f.InOrder buf block pos c₀.sb.dmaAuto (fetched before).length := by
  have hinv := h.inv ha
  exact ⟨hinv.stream, hinv.playing.queue, hinv.inOrder⟩

/-- A controller whose channel 1 has a buffer of 8 bytes at 16. -/
def eightBytesDma : I8257State where
  dshift := 0
  status := 0
  command := 0
  mask := 0
  flipFlop := false
  regs _ := ⟨16, 0, 16, 7, 0x58, 0, 0⟩
  bhScheduled := false
  running := false

/-- Blocks of 4 bytes, one after the other. -/
def eightBytes : Card where
  sb := ⟨5, false, false, 8, .u8, true, 4, false, 11025, -1, false, false, false, 0, false, 11025,
    0, 64, fun _ => 0, 0, 0, false, false, 0, 0, []⟩
  isa _ := eightBytesDma
  mem a := BitVec.ofNat 8 a
  memSize := 64

theorem eightBytes_armed : Armed false ⟨16, 8, Nat.zero_lt_succ 7⟩ 4 0 eightBytes where
  channel := ⟨by decide, by decide, by decide, by decide, by decide, by decide⟩
  used := rfl
  block_pos := Nat.zero_lt_succ 3
  blockSize := rfl
  nowCount := rfl
  queue := Nat.zero_le _

/-- The transfer is started, the controller runs once more, and the output asks for 64 bytes. -/
theorem sound_in_order_eightBytes :
    let c₁ := startTransfer (dmaRun 2 fun _ => 0) true eightBytes
    let c₂ := i8257DmaRun (fun _ => 0) false c₁
    let fs := [fetchOf false eightBytes c₁] ++ [fetchOf false c₁ c₂]
    let s := (audioCallback 64 c₂.sb).1
    eightBytes.sb.queued ++ fetched fs = [] ++ takenBy c₂.sb s ++ s.queued ∧
      s.queueLength ≤ audioBufLen ∧
      ∀ before f after, fs = before ++ f :: after →
        f.InOrder ⟨16, 8, Nat.zero_lt_succ 7⟩ 4 0 true (fetched before).length := by
  intro c₁ c₂ fs s
  exact sound_in_order eightBytes_armed (.callback 64 (.dma (fun _ => 0) (.start true fun _ => 0)))

end Runs

end Winspire.Sound
