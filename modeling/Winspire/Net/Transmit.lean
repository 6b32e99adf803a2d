import Winspire.Net.Delivery

/-!
# Packets are sent as they were written

The guest writes a packet through the data port and has it sent. Frames that arrive in between stay
in the ring, and the packet is outside it.
-/

namespace Winspire.Net

set_option autoImplicit false

namespace Ne2000

variable {s t : Ne2000} {ring : Cyclic} {w : List Byte} {a : Nat} {buf : Nat → Byte} {size : Nat}

/-- The registers of the ring, with its pages in it. -/
structure Ready (s : Ne2000) (ring : Cyclic) : Prop where
  setUp : s.SetUp ring
  boundary : ring.Inside (page s.boundary)
  curpag : ring.Inside (page s.curpag)

theorem Ready.receive (hs : s.Ready ring) (ht : s.receive buf size = some t) :
    t.Ready ring ∧ t.rsar = s.rsar ∧ t.dcfg = s.dcfg ∧
      ∀ i, ¬ring.Inside i → t.mem i = s.mem i := by
  obtain ⟨b, j, hidle⟩ := hs.setUp.idle hs.boundary hs.curpag
  by_cases htakes : s.takes buf size = true
  · obtain ⟨hlength, hfree⟩ := hidle.takes htakes
    unfold Ne2000.receive at ht
    rw [if_pos htakes] at ht
    dsimp only at ht
    rw [hidle.written] at ht
    generalize padded buf size = f at *
    have hspan : span f ≤ 1536 := by
      unfold span
      omega
    have hnext := hidle.nextFrame hlength (by omega)
    generalize s.nextFrame f.length = next at *
    have hinside := ring.cell_inside (j + span f)
    have hdvd := hs.setUp.cell_dvd (Nat.dvd_add hidle.dvd_next (span_dvd f))
    have hhigh := hs.setUp.high
    have hlt := hinside.2
    rw [← hnext] at hdvd hlt hinside
    cases ht
    refine ⟨⟨?_, hs.boundary, ?_⟩, rfl, rfl, fun i hi => Cyclic.put_outside hi⟩
    · have hset := hs.setUp
      exact ⟨hset.start, hset.stop, hset.base_dvd, hset.size_dvd, hset.low, hset.high⟩
    · have hpage := page_of hdvd (by omega)
      rw [← hpage] at hinside
      exact hinside
  · unfold Ne2000.receive at ht
    rw [if_neg htakes] at ht
    cases ht
    exact ⟨hs, rfl, rfl, fun _ _ => rfl⟩

/-- The bytes of one access to the data port. -/
def valBytes (s : Ne2000) (val : Word) : List Byte :=
  if s.dcfg.getLsbD 0 then [val.setWidth 8, (val >>> 8).setWidth 8] else [val.setWidth 8]

theorem length_valBytes (s : Ne2000) (val : Word) : (s.valBytes val).length = s.width := by
  unfold valBytes width
  split <;> rfl

theorem dmaUpdate_mem (s : Ne2000) (len : Nat) : (s.dmaUpdate len).mem = s.mem := by
  unfold dmaUpdate
  dsimp only
  split <;> rfl

theorem asicIoportWrite_eq {val : Word} (hrsar : s.rsar.toNat = a) (hlow : 0x4000 ≤ a)
    (hfit : a + s.width ≤ 0xc000) (heven : s.dcfg.getLsbD 0 = true → 2 ∣ a) (hcnt : s.rcnt ≠ 0) :
    s.asicIoportWrite val = { s with mem := blit s.mem a (s.valBytes val) }.dmaUpdate s.width := by
  have hmapped : mapped a = true := by
    have hwidth := s.length_valBytes 0
    apply decide_eq_true
    right
    unfold pmemStart memSize pmemEnd pmemSize pmemStart
    unfold width at hfit
    split at hfit <;> omega
  unfold asicIoportWrite valBytes width
  rw [if_neg hcnt]
  by_cases hword : s.dcfg.getLsbD 0 = true
  · rw [if_pos hword, if_pos hword, if_pos hword]
    have halign := even_word (w := s.rsar) (by rw [hrsar]; exact heven hword)
    unfold memWritew
    dsimp only
    rw [halign, hrsar, if_pos hmapped]
  · rw [if_neg hword, if_neg hword, if_neg hword]
    unfold memWriteb
    rw [hrsar, if_pos hmapped, blit_singleton]

/-- Packets are written from `a` on while frames arrive. `on` tells whether the remote address is
still that of the packet. -/
inductive TxRun (ring : Cyclic) (a : Nat) : Ne2000 → List Byte → Bool → Prop where
  | start {s : Ne2000} : s.Ready ring → s.rsar.toNat = a → 0x4000 ≤ a → a ≤ 0xc000 → 2 ∣ a →
      a ≤ ring.base ∨ ring.base + ring.size ≤ a → TxRun ring a s [] true
  | data {s : Ne2000} {w : List Byte} (val : Word) : TxRun ring a s w true → s.rcnt ≠ 0 →
      a + (w.length + s.width) ≤ 0xc000 →
      a + (w.length + s.width) ≤ ring.base ∨ ring.base + ring.size ≤ a →
      TxRun ring a (s.asicIoportWrite val) (w ++ s.valBytes val) true
  | receive {s t : Ne2000} {w : List Byte} {on : Bool} (buf : Nat → Byte) (size : Nat) :
      TxRun ring a s w on → s.receive buf size = some t → TxRun ring a t w on
  | other {s t : Ne2000} {w : List Byte} {on : Bool} : TxRun ring a s w on → t.Ready ring →
      (∀ i, a ≤ i → i < a + w.length → t.mem i = s.mem i) →
      TxRun ring a t w (on && decide (t.rsar = s.rsar ∧ t.dcfg = s.dcfg))

/-- What has been written is in the memory, outside the ring. -/
structure Written (ring : Cyclic) (a : Nat) (s : Ne2000) (w : List Byte) (on : Bool) : Prop where
  ready : s.Ready ring
  low : 0x4000 ≤ a
  high : a + w.length ≤ 0xc000
  even : 2 ∣ a
  away : a + w.length ≤ ring.base ∨ ring.base + ring.size ≤ a
  bytes : slice s.mem a w.length = w
  rsar : on = true → s.rsar.toNat = a + w.length
  dcfg : on = true → s.dcfg.getLsbD 0 = true → 2 ∣ w.length

theorem Written.data {val : Word} (h : Written ring a s w true) (hcnt : s.rcnt ≠ 0)
    (hfit : a + (w.length + s.width) ≤ 0xc000)
    (haway : a + (w.length + s.width) ≤ ring.base ∨ ring.base + ring.size ≤ a) :
    Written ring a (s.asicIoportWrite val) (w ++ s.valBytes val) true := by
  have hlength := s.length_valBytes val
  have hwidth : 0 < s.width := by
    unfold width
    split <;> decide
  have hlow := h.low
  have hpos := ring.size_pos
  have hset := h.ready.setUp
  have hstart := hset.start
  have hstop := hset.stop
  have hhigh := hset.high
  have hrsar := h.rsar rfl
  have heven : s.dcfg.getLsbD 0 = true → 2 ∣ a + w.length := fun hword =>
    Nat.dvd_add h.even (h.dcfg rfl hword)
  rw [asicIoportWrite_eq hrsar (by omega) (by omega) heven hcnt]
  obtain ⟨hkeeps, hboundary, hdcfg, hmoved⟩ :=
    dmaUpdate_keeps { s with mem := blit s.mem (a + w.length) (s.valBytes val) } ring s.width
  have hmem := dmaUpdate_mem { s with mem := blit s.mem (a + w.length) (s.valBytes val) } s.width
  generalize ({ s with mem := blit s.mem (a + w.length) (s.valBytes val) } : Ne2000).dmaUpdate
    s.width = t at *
  dsimp only at *
  refine ⟨⟨hkeeps.setUp ⟨hstart, hstop, hset.base_dvd, hset.size_dvd, hset.low, hhigh⟩, ?_, ?_⟩,
    hlow, ?_, h.even, ?_, ?_, fun _ => ?_, fun _ hword => ?_⟩
  · rw [hboundary]
    exact h.ready.boundary
  · rw [hkeeps.curpag]
    exact h.ready.curpag
  · rw [List.length_append, hlength]
    exact hfit
  · rw [List.length_append, hlength]
    exact haway
  · rw [hmem, List.length_append, slice_add]
    congr 1
    · conv_rhs => rw [← h.bytes]
      apply slice_congr
      intro i _ hi
      exact blit_apply_of_lt s.mem _ hi
    · exact hlength ▸ slice_blit_self s.mem (a + w.length) (s.valBytes val)
  · have hsum : (s.rsar + BitVec.ofNat 32 s.width).toNat = a + w.length + s.width := by
      rw [BitVec.toNat_add, BitVec.toNat_ofNat, hrsar]
      omega
    have hnot : s.rsar + BitVec.ofNat 32 s.width ≠ s.stop := by
      intro heq
      rw [heq, hstop] at hsum
      omega
    rw [hmoved, if_neg hnot, hsum, List.length_append, hlength, Nat.add_assoc]
  · rw [hdcfg] at hword
    rw [List.length_append, hlength]
    apply Nat.dvd_add (h.dcfg rfl hword)
    unfold width
    rw [if_pos hword]

theorem TxRun.written {on : Bool} (h : TxRun ring a s w on) : Written ring a s w on := by
  induction h with
  | start hready hrsar hlow hhigh heven haway =>
    exact ⟨hready, hlow, hhigh, heven, haway, rfl, fun _ => hrsar, fun _ _ => Nat.dvd_zero 2⟩
  | data val _ hcnt hfit haway ih => exact ih.data hcnt hfit haway
  | @receive s t w on buf size _ ht ih =>
    obtain ⟨hready, hrsar, hdcfg, hmem⟩ := ih.ready.receive ht
    have haway := ih.away
    refine ⟨hready, ih.low, ih.high, ih.even, haway, ?_, ?_, ?_⟩
    · conv_rhs => rw [← ih.bytes]
      apply slice_congr
      intro i hi hlt
      apply hmem
      unfold Cyclic.Inside
      omega
    · rw [hrsar]
      exact ih.rsar
    · rw [hdcfg]
      exact ih.dcfg
  | @other s t w on _ hready hmem ih =>
    refine ⟨hready, ih.low, ih.high, ih.even, ih.away, ?_, fun hon => ?_, fun hon => ?_⟩
    · conv_rhs => rw [← ih.bytes]
      exact slice_congr hmem
    · simp only [Bool.and_eq_true, decide_eq_true_eq] at hon
      rw [hon.2.1]
      exact ih.rsar hon.1
    · simp only [Bool.and_eq_true, decide_eq_true_eq] at hon
      rw [hon.2.2]
      exact ih.dcfg hon.1

/-- The command sends what has been written, whatever has arrived in between. -/
theorem sent_as_written {on : Bool} {addr : Word} {val : Byte} (h : TxRun ring a s w on)
    (hstart : s.packetStart = a) (hcnt : s.tcnt.toNat ≤ w.length) (haddr : addr &&& 0xf = 0)
    (hgo : val.getLsbD 0 = false) (htrans : val.getLsbD 2 = true) :
    (s.ioportWrite addr val).sent = s.sent ++ [w.take s.tcnt.toNat] ∧
      (s.ioportWrite addr val).isr.getLsbD 1 = true := by
  have hw := h.written
  have hbytes := hw.bytes
  have hhigh := hw.high
  -- What is sent is the start of what has been written.
  have hslice : slice s.mem a s.tcnt.toNat = w.take s.tcnt.toNat := by
    conv_rhs => rw [← hbytes]
    obtain ⟨n, hn⟩ := Nat.exists_eq_add_of_le hcnt
    rw [hn, slice_add, List.take_left' (length_slice _ _ _)]
  have hsend : ∀ u : Ne2000, u.tpsr = s.tpsr → u.tcnt = s.tcnt → u.mem = s.mem →
      u.sent = s.sent → u.transmit = { u with sent := s.sent ++ [w.take s.tcnt.toNat] } := by
    intro u htpsr htcnt hmem hsent
    have hpacket : u.packetStart = a := by
      rw [← hstart]
      unfold packetStart
      rw [htpsr]
    have hfits : a + s.tcnt.toNat ≤ pmemEnd := by
      unfold pmemEnd pmemSize pmemStart
      omega
    unfold transmit
    rw [hpacket, htcnt, if_pos hfits, hmem, hsent, hslice]
  have hgo' : ¬val.getLsbD 0 = true := Bool.eq_false_iff.mp hgo
  unfold ioportWrite writeCmd
  rw [if_pos haddr]
  dsimp only
  rw [if_neg hgo', if_pos htrans]
  have hempty : ∀ u : Ne2000, ∃ isr level, u.completeEmpty val =
      { u with isr := isr, irqLevel := level } := by
    intro u
    unfold completeEmpty
    split <;> exact ⟨_, _, rfl⟩
  obtain ⟨isr, level, hu⟩ := hempty { s with cmd := val, isr := s.isr &&& ~~~0x80 }
  have hsent := hsend { s with cmd := val, isr := isr, irqLevel := level } rfl rfl rfl rfl
  rw [hu]
  dsimp only at hsent ⊢
  rw [hsent]
  refine ⟨rfl, ?_⟩
  unfold updateIrq signal
  dsimp only
  rw [BitVec.getLsbD_or]
  exact Bool.or_true _

theorem upperRing_pos : 0 < 0x3000 := by decide

def upperRing : Cyclic := ⟨0x5000, 0x3000, upperRing_pos⟩

/-- A frame leaves the registers of the transmitter and of the remote DMA alone. -/
theorem receive_sender (ht : s.receive buf size = some t) :
    t.packetStart = s.packetStart ∧ t.tcnt = s.tcnt ∧ t.sent = s.sent ∧ t.rcnt = s.rcnt ∧
      t.dcfg = s.dcfg := by
  unfold Ne2000.receive at ht
  split at ht
  · obtain ⟨mem, -, rfl⟩ := Option.map_eq_some_iff.mp ht
    exact ⟨rfl, rfl, rfl, rfl, rfl⟩
  · cases ht
    exact ⟨rfl, rfl, rfl, rfl, rfl⟩

theorem asicIoportWrite_sender (s : Ne2000) (val : Word) :
    (s.asicIoportWrite val).packetStart = s.packetStart ∧
      (s.asicIoportWrite val).tcnt = s.tcnt ∧ (s.asicIoportWrite val).sent = s.sent := by
  unfold asicIoportWrite memWritew memWriteb dmaUpdate
  dsimp only
  split_ifs <;> exact ⟨rfl, rfl, rfl⟩

/-- A card with room for a packet of four bytes before the ring, of which three are to be sent. -/
def sender : Ne2000 :=
  { card with
    start := 0x5000
    boundary := 0x50
    curpag := 0x50
    rsar := 0x4000
    rcnt := 4
    dcfg := 1
    tpsr := 0x40
    tcnt := 3 }

theorem sender_ready : sender.Ready upperRing :=
  ⟨⟨rfl, rfl, by decide, by decide, by decide, by decide⟩, ⟨by decide, by decide⟩,
    ⟨by decide, by decide⟩⟩

/-- Between the two words a frame arrives. -/
theorem sent_as_written_sender :
    ∃ t, (sender.asicIoportWrite 0xa55a).receive (fun _ => 0) 64 = some t ∧
      ((t.asicIoportWrite 0x00c3).ioportWrite 0 0x26).sent = [[0x5a, 0xa5, 0xc3]] ∧
      ((t.asicIoportWrite 0x00c3).ioportWrite 0 0x26).isr.getLsbD 1 = true := by
  have hstart : TxRun upperRing 0x4000 sender [] true :=
    .start sender_ready rfl (by decide) (by decide) (by decide) (.inl (by decide))
  have hrun := hstart.data 0xa55a (by decide) (by decide) (.inl (by decide))
  have hset := hrun.written.ready
  obtain ⟨b, j, hs⟩ := hset.setUp.idle hset.boundary hset.curpag
  obtain ⟨t, ht⟩ := hs.receive_some (fun _ => 0) 64
  obtain ⟨hpacket, htcnt, hsent, hrcnt, hdcfg⟩ := receive_sender ht
  have hbytes : t.valBytes 0x00c3 = [0xc3, 0x00] := by
    unfold valBytes
    rw [hdcfg]
    rfl
  have hwidth : t.width = 2 := by
    unfold width
    rw [hdcfg]
    rfl
  have hrun' := hrun.receive _ _ ht
  have hmore : t.rcnt ≠ 0 := by
    rw [hrcnt]
    decide
  have hfit : 0x4000 + (2 + t.width) ≤ 0x5000 := by
    rw [hwidth]
    decide
  have hlast := hrun'.data 0x00c3 hmore (Nat.le_trans hfit (by decide)) (.inl hfit)
  obtain ⟨hstart', htcnt', hsent'⟩ := t.asicIoportWrite_sender 0x00c3
  have hcard : t.packetStart = 0x4000 ∧ t.tcnt = 3 ∧ t.sent = [] := by
    rw [hpacket, htcnt, hsent]
    exact ⟨by decide, rfl, rfl⟩
  have hthree : (t.asicIoportWrite 0x00c3).tcnt = 3 := htcnt'.trans hcard.2.1
  have hgo := @sent_as_written _ _ _ _ _ 0 0x26 hlast (hstart'.trans hcard.1)
    (by rw [hthree, hbytes]; decide) (by decide) (by decide) (by decide)
  refine ⟨t, ht, ?_, hgo.2⟩
  rw [hgo.1, hthree, hbytes, hsent', hcard.2.2]
  rfl

end Ne2000

end Winspire.Net
