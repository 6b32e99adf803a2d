import Mathlib.Tactic.IntervalCases
import Winspire.Net.Frames

/-!
# Frames are delivered in order

Frames arrive and the guest reads them, a byte or two at a time, in any interleaving. What the guest
has read is what has arrived, in order, each frame once. A frame must leave a page free: a ring that
is filled to the last page looks empty.
-/

namespace Winspire.Net

set_option autoImplicit false

namespace Ne2000

variable {s t : Ne2000} {ring : Cyclic} {f : List Byte} {fs : List (List Byte)} {b h j : Nat}
  {buf : Nat → Byte} {size : Nat}

theorem length_padded (buf : Nat → Byte) (size : Nat) :
    (padded buf size).length = size + (60 - size) := by
  unfold padded minBufSize
  rw [List.length_append, length_slice, List.length_replicate]

theorem span_word (hn : f.length ≤ 1514) :
    (BitVec.ofNat 32 (f.length + 4 + 4 + 255) &&& ~~~0xff).toNat = span f := by
  have hmask : ∀ v : Word, v &&& ~~~(0xff : Word) = v >>> 8 <<< 8 := by
    intro v
    ext i hi
    simp only [BitVec.getElem_and, BitVec.getElem_shiftLeft, BitVec.getElem_not]
    interval_cases i <;> simp
  unfold span
  rw [hmask, BitVec.toNat_shiftLeft, BitVec.toNat_ushiftRight, BitVec.toNat_ofNat,
    Nat.shiftRight_eq_div_pow, Nat.shiftLeft_eq]
  omega

theorem Holds.takes (hs : s.Holds ring b h fs j) (htakes : s.takes buf size = true) :
    (padded buf size).length ≤ 1514 ∧ 1536 ≤ ring.size - (j - b) := by
  have hb := hs.dvd_boundary
  have hj := hs.dvd_next
  have hsize := hs.setUp.size_dvd
  unfold Ne2000.takes at htakes
  rw [hs.bufferFull] at htakes
  simp only [Bool.and_eq_true, Bool.not_eq_true', Bool.or_eq_false_iff, decide_eq_true_eq,
    decide_eq_false_iff_not] at htakes
  obtain ⟨⟨hmax, -, hroom⟩, -⟩ := htakes
  rw [length_padded]
  unfold maxEthFrameSize at hmax
  omega

/-- The address of the next frame is that of the position behind this one. -/
theorem Holds.nextFrame (hs : s.Holds ring b h fs j) (hn : f.length ≤ 1514)
    (hroom : span f ≤ ring.size) : (s.nextFrame f.length).toNat = ring.cell (j + span f) := by
  have hstart := hs.setUp.start
  have hstop := hs.setUp.stop
  have hhigh := hs.setUp.high
  have hcurpag := hs.curpag
  have hindex := page_word s.curpag
  have hspan := span_word hn
  obtain ⟨hlow, hlt⟩ := ring.cell_inside j
  unfold Ne2000.nextFrame
  dsimp only
  generalize s.curpag.setWidth 32 <<< 8 = index at *
  generalize BitVec.ofNat 32 (f.length + 4 + 4 + 255) &&& ~~~0xff = rounded at *
  have hsum : (index + rounded).toNat = ring.cell j + span f := by
    rw [BitVec.toNat_add]
    omega
  have hsize : (s.stop - s.start).toNat = ring.size := by
    rw [BitVec.toNat_sub_of_le (by rw [BitVec.le_def]; omega)]
    omega
  split
  · rename_i hpast
    rw [BitVec.le_def] at hpast
    have hwrap := Cyclic.cell_wrap (c := ring) (i := j) (n := span f) (by omega) hroom
    rw [BitVec.toNat_sub_of_le (by rw [BitVec.le_def]; omega)]
    omega
  · rename_i hstay
    rw [BitVec.le_def] at hstay
    rw [hsum]
    exact (Cyclic.cell_add (by omega)).symm

/-- The header and the frame are written behind the frames that wait. -/
theorem Holds.written (hs : s.Holds ring b h fs j) (f : List Byte) (next : Word) :
    storeFrame s.start s.stop (blit s.mem (s.curpag.setWidth 32 <<< 8).toNat (header f next))
      (s.curpag.setWidth 32 <<< 8 + 4) f = some (ring.put s.mem j (header f next ++ f)) := by
  have hhigh := hs.setUp.high
  have hindex : (s.curpag.setWidth 32 <<< 8).toNat = ring.cell j := by
    rw [page_word, hs.curpag]
  have hheader : (header f next).length = 4 := rfl
  have hfour : ring.cell (j + 4) = ring.cell j + 4 := hs.setUp.cell_page hs.dvd_next (by decide)
  have hdata : (s.curpag.setWidth 32 <<< 8 + 4 : Word).toNat = ring.cell (j + 4) := by
    have hinside := ring.cell_inside j
    have hlimit : ring.cell j < 0xc000 := Nat.lt_of_lt_of_le hinside.2 hhigh
    have hcarry : ring.cell j + (4 : Word).toNat < 2 ^ 32 :=
      Nat.lt_trans (Nat.add_lt_add_right hlimit 4) (by decide)
    rw [BitVec.toNat_add, hindex, hfour]
    exact Nat.mod_eq_of_lt hcarry
  have hend := (ring.cell_inside (j + 4)).2
  rw [storeFrame_eq hs.setUp hdata, hindex, Cyclic.put_append, hheader,
    Cyclic.blit_eq_put (by rw [hheader]; omega)]

theorem Holds.receive_some (hs : s.Holds ring b h fs j) (buf : Nat → Byte) (size : Nat) :
    ∃ t, s.receive buf size = some t := by
  unfold Ne2000.receive
  split
  · dsimp only
    rw [hs.written]
    exact ⟨_, rfl⟩
  · exact ⟨_, rfl⟩

/-- A frame that leaves a page free is stored behind those that wait; nothing else changes. -/
theorem Holds.receive (hs : s.Holds ring b h fs j) (htakes : s.takes buf size = true)
    (hroom : span (padded buf size) < s.available.toNat) (ht : s.receive buf size = some t) :
    t.Holds ring b h (fs ++ [padded buf size]) (j + span (padded buf size)) ∧
      t.rsar = s.rsar ∧ t.dcfg = s.dcfg ∧
        ∀ k, h ≤ k → k < j → t.mem (ring.cell k) = s.mem (ring.cell k) := by
  obtain ⟨hlength, hfree⟩ := hs.takes htakes
  have hhigh := hs.setUp.high
  have hle := hs.chain.le
  have hb := hs.boundary_le
  have hnear := hs.near
  rw [hs.available] at hroom
  unfold Ne2000.receive at ht
  rw [if_pos htakes] at ht
  dsimp only at ht
  rw [hs.written] at ht
  generalize padded buf size = f at *
  have hspan := span_gt f
  have hnext := hs.nextFrame hlength (by omega)
  generalize s.nextFrame f.length = next at *
  have hdvd : 256 ∣ j + span f := Nat.dvd_add hs.dvd_next (span_dvd f)
  have hpage : page ((next >>> 8).setWidth 8) = ring.cell (j + span f) := by
    have hcell := hs.setUp.cell_dvd hdvd
    have hinside := (ring.cell_inside (j + span f)).2
    rw [← hnext] at hcell hinside ⊢
    exact page_of hcell (by omega)
  have hheader : (header f next).length = 4 := rfl
  have hkept : ∀ k, h ≤ k → k < j →
      ring.put s.mem j (header f next ++ f) (ring.cell k) = s.mem (ring.cell k) := by
    intro k hk hj
    apply Cyclic.put_before hj
    rw [List.length_append, hheader]
    omega
  cases ht
  refine ⟨⟨?_, hs.boundary, hpage, hs.dvd_first, hdvd, hs.dvd_boundary, hb, ?_, ?_⟩,
    rfl, rfl, hkept⟩
  · have hset := hs.setUp
    exact ⟨hset.start, hset.stop, hset.base_dvd, hset.size_dvd, hset.low, hset.high⟩
  · omega
  · apply (hs.chain.congr hkept).append
    refine ⟨⟨hlength, next, hpage, ?_⟩, rfl⟩
    have hlen : (header f next ++ f).length = 4 + f.length := List.length_append
    rw [← hlen]
    exact Cyclic.read_put (by omega)

/-- The guest leaves the registers of the ring and its memory alone. -/
structure KeepsRing (ring : Cyclic) (s t : Ne2000) : Prop where
  start : t.start = s.start
  stop : t.stop = s.stop
  curpag : t.curpag = s.curpag
  mem : ∀ a, ring.Inside a → t.mem a = s.mem a

theorem KeepsRing.setUp (hk : KeepsRing ring s t) (hs : s.SetUp ring) : t.SetUp ring := by
  refine ⟨?_, ?_, hs.base_dvd, hs.size_dvd, hs.low, hs.high⟩
  · rw [hk.start]
    exact hs.start
  · rw [hk.stop]
    exact hs.stop

theorem Holds.keep (hs : s.Holds ring b h fs j) (hk : KeepsRing ring s t)
    (hinside : ring.Inside (page t.boundary))
    (hahead : ring.ahead (page s.boundary) (page t.boundary) ≤
      ring.ahead (page s.boundary) (ring.cell h)) :
    ∃ b', t.Holds ring b' h fs j := by
  have hle := hs.chain.le
  have hb := hs.boundary_le
  have hnear := hs.near
  rw [hs.boundary, Cyclic.ahead_cell hb (by omega)] at hahead
  have hcell := Cyclic.cell_ahead (i := b) hinside
  generalize ring.ahead (ring.cell b) (page t.boundary) = d at *
  have hdvd : 256 ∣ b + d := hs.setUp.page_dvd hcell.symm
  refine ⟨b + d, hk.setUp hs.setUp, hcell.symm, ?_, hs.dvd_first, hs.dvd_next, hdvd, by omega,
    by omega, ?_⟩
  · rw [hk.curpag]
    exact hs.curpag
  · exact hs.chain.congr fun k _ _ => hk.mem _ (ring.cell_inside k)

theorem dmaUpdate_keeps (s : Ne2000) (ring : Cyclic) (len : Nat) :
    KeepsRing ring s (s.dmaUpdate len) ∧ (s.dmaUpdate len).boundary = s.boundary ∧
      (s.dmaUpdate len).dcfg = s.dcfg ∧
        (s.dmaUpdate len).rsar = if s.rsar + BitVec.ofNat 32 len = s.stop then s.start
          else s.rsar + BitVec.ofNat 32 len := by
  unfold dmaUpdate
  dsimp only
  split
  · exact ⟨⟨rfl, rfl, rfl, fun _ _ => rfl⟩, rfl, rfl, rfl⟩
  · exact ⟨⟨rfl, rfl, rfl, fun _ _ => rfl⟩, rfl, rfl, rfl⟩

/-- The bytes of one access to the data port. -/
def dataBytes (s : Ne2000) : List Byte :=
  let v := s.asicIoportRead.1
  if s.dcfg.getLsbD 0 then [v.setWidth 8, (v >>> 8).setWidth 8] else [v.setWidth 8]

theorem length_dataBytes (s : Ne2000) : s.dataBytes.length = s.width := by
  unfold dataBytes width
  dsimp only
  split <;> rfl

theorem asicIoportRead_keeps (s : Ne2000) (ring : Cyclic) :
    KeepsRing ring s s.asicIoportRead.2 ∧ s.asicIoportRead.2.boundary = s.boundary ∧
      s.asicIoportRead.2.dcfg = s.dcfg := by
  obtain ⟨hk, hb, hd, -⟩ := s.dmaUpdate_keeps ring s.width
  unfold asicIoportRead width at *
  split
  · rename_i hword
    rw [if_pos hword] at hk hb hd
    exact ⟨hk, hb, hd⟩
  · rename_i hbyte
    rw [if_neg hbyte] at hk hb hd
    exact ⟨hk, hb, hd⟩

theorem toNat_pair (hi lo : Byte) : (hi ++ lo).toNat = hi.toNat * 256 + lo.toNat := by
  rw [BitVec.toNat_append, ← Nat.shiftLeft_add_eq_or_of_lt lo.isLt, Nat.shiftLeft_eq]

theorem word_low (hi lo : Byte) : ((hi ++ lo).setWidth 32).setWidth 8 = lo := by
  rw [BitVec.setWidth_setWidth_of_le _ (by decide)]
  exact BitVec.setWidth_append_eq_right

theorem word_high (hi lo : Byte) : ((hi ++ lo).setWidth 32 >>> 8).setWidth 8 = hi := by
  have hpair := toNat_pair hi lo
  have hlo := lo.isLt
  have hhi := hi.isLt
  apply BitVec.eq_of_toNat_eq
  rw [BitVec.toNat_setWidth, BitVec.toNat_ushiftRight, BitVec.toNat_setWidth, hpair,
    Nat.shiftRight_eq_div_pow]
  omega

theorem even_word {w : Word} (heven : 2 ∣ w.toNat) : w &&& ~~~(1 : Word) = w := by
  have hbit : w.getLsbD 0 = false := by
    rw [BitVec.getLsbD, Nat.testBit_zero]
    exact decide_eq_false (by omega)
  rw [BitVec.getLsbD_eq_getElem (by decide)] at hbit
  ext k hk
  simp only [BitVec.getElem_and, BitVec.getElem_not]
  rcases Nat.eq_zero_or_pos k with rfl | hpos
  · rw [hbit, Bool.false_and]
  · interval_cases k <;> simp

/-- An access reads the next bytes of the ring and goes on behind them. -/
theorem data_spec {i : Nat} (hs : s.SetUp ring) (hrsar : s.rsar.toNat = ring.cell i)
    (heven : s.dcfg.getLsbD 0 = true → 2 ∣ i) :
    s.dataBytes = ring.read s.mem i s.width ∧
      s.asicIoportRead.2.rsar.toNat = ring.cell (i + s.width) := by
  have hstart := hs.start
  have hstop := hs.stop
  have hlow := hs.low
  have hhigh := hs.high
  have hinside := ring.cell_inside i
  obtain ⟨hbase, hlt⟩ := hinside
  have hmapped : mapped (ring.cell i) = true := by
    apply decide_eq_true
    right
    unfold pmemStart memSize pmemEnd pmemSize pmemStart
    omega
  have hfirst : ring.cell (i + 0) = ring.cell i := rfl
  have hmoves : ∀ len, 0 < len → ring.cell i + len ≤ ring.base + ring.size →
      (s.dmaUpdate len).rsar.toNat = ring.cell (i + len) := by
    intro len hpos hfit
    obtain ⟨-, -, -, hrsar'⟩ := s.dmaUpdate_keeps ring len
    have hsum : (s.rsar + BitVec.ofNat 32 len).toNat = ring.cell i + len := by
      rw [BitVec.toNat_add, BitVec.toNat_ofNat, hrsar]
      omega
    rw [hrsar']
    split
    · rename_i hend
      rw [hend, hstop] at hsum
      have hwrap := Cyclic.cell_wrap (c := ring) (i := i) (n := len) (by omega) (by omega)
      omega
    · rename_i hin
      have hnot : ring.cell i + len ≠ ring.base + ring.size := by
        intro hat
        apply hin
        apply BitVec.eq_of_toNat_eq
        omega
      rw [hsum]
      exact (Cyclic.cell_add (by omega)).symm
  unfold dataBytes width asicIoportRead
  by_cases hword : s.dcfg.getLsbD 0 = true
  · rw [if_pos hword, if_pos hword, if_pos hword]
    dsimp only
    have hbase' := hs.base_dvd
    have hsize' := hs.size_dvd
    have hdvd : 2 ∣ ring.cell i := by
      apply Nat.dvd_add (Nat.dvd_trans (by decide) hbase')
      exact (Nat.dvd_mod_iff (Nat.dvd_trans (by decide) hsize')).mpr (heven hword)
    have hfit : ring.cell i + 2 ≤ ring.base + ring.size := by omega
    have hsecond : ring.cell (i + 1) = ring.cell i + 1 := Cyclic.cell_add (by omega)
    have halign : s.rsar &&& ~~~(1 : Word) = s.rsar := even_word (by rw [hrsar]; exact hdvd)
    refine ⟨?_, hmoves 2 (by decide) hfit⟩
    unfold memReadw
    dsimp only
    rw [halign, hrsar, if_pos hmapped]
    rw [word_low, word_high]
    unfold Cyclic.read
    simp only [List.range_succ, List.range_zero, List.nil_append, List.cons_append,
      List.map_cons, List.map_nil]
    rw [hfirst, hsecond]
  · rw [if_neg hword, if_neg hword, if_neg hword]
    dsimp only
    refine ⟨?_, hmoves 1 (by decide) (by omega)⟩
    unfold memReadb
    rw [hrsar, if_pos hmapped, BitVec.setWidth_setWidth_of_le _ (by decide), BitVec.setWidth_eq]
    rfl

/-- What the guest keeps: the page of the next frame, what it has read of it, and the frames it has
taken. -/
structure Guest where
  first : Byte
  read : Option (List Byte)
  got : List (List Byte)

/-- The length in the header of a frame, the header included. -/
def frameLength (o : List Byte) : Nat := (o.getD 3 0 ++ o.getD 2 0).toNat

/-- The guest takes the frame it has read, and goes on at the page the header has. -/
def Guest.taken (g : Guest) (o : List Byte) : Guest :=
  { first := o.getD 1 0
    read := none
    got := g.got ++ [(o.take (frameLength o)).drop 4] }

/-- The guest has used the remote DMA for something else. -/
def Guest.after (g : Guest) (s t : Ne2000) : Guest :=
  { g with read := if t.rsar = s.rsar ∧ t.dcfg = s.dcfg then g.read else none }

/-- Frames arrive, the third argument, and the guest reads them. It may do anything else that
leaves the ring alone, and move the boundary up to the frame it reads next. -/
inductive RxRun (ring : Cyclic) : Ne2000 → Guest → List (List Byte) → Prop where
  | start {s : Ne2000} : s.SetUp ring → ring.Inside (page s.boundary) →
      ring.Inside (page s.curpag) → RxRun ring s ⟨s.curpag, none, []⟩ []
  | receive {s t : Ne2000} {g : Guest} {fs : List (List Byte)} (buf : Nat → Byte) (size : Nat) :
      RxRun ring s g fs →
      (s.takes buf size = true → span (padded buf size) < s.available.toNat) →
      s.receive buf size = some t →
      RxRun ring t g (if s.takes buf size then fs ++ [padded buf size] else fs)
  | other {s t : Ne2000} {g : Guest} {fs : List (List Byte)} : RxRun ring s g fs →
      KeepsRing ring s t → ring.Inside (page t.boundary) →
      ring.ahead (page s.boundary) (page t.boundary) ≤
        ring.ahead (page s.boundary) (page g.first) →
      RxRun ring t (g.after s t) fs
  | point {s : Ne2000} {g : Guest} {fs : List (List Byte)} : RxRun ring s g fs →
      g.first ≠ s.curpag → s.rsar.toNat = page g.first →
      RxRun ring s { g with read := some [] } fs
  | data {s : Ne2000} {g : Guest} {fs : List (List Byte)} : RxRun ring s g fs →
      RxRun ring s.asicIoportRead.2 { g with read := g.read.map (· ++ s.dataBytes) } fs
  | take {s : Ne2000} {g : Guest} {fs : List (List Byte)} {o : List Byte} : RxRun ring s g fs →
      g.read = some o → 4 ≤ o.length → frameLength o ≤ o.length → RxRun ring s (g.taken o) fs

/-- What has been read is the start of the first frame that waits. -/
structure Reads (ring : Cyclic) (s : Ne2000) (h : Nat) (f o : List Byte) : Prop where
  rsar : s.rsar.toNat = ring.cell (h + o.length)
  even : s.dcfg.getLsbD 0 = true → 2 ∣ o.length
  bytes : o.take (4 + f.length) = ring.read s.mem h (min o.length (4 + f.length))

/-- The frames that have arrived are those that have been taken and those that wait. -/
def Guest.Follows (g : Guest) (ring : Cyclic) (s : Ne2000) (fs : List (List Byte)) : Prop :=
  ∃ b h j ws, s.Holds ring b h ws j ∧ page g.first = ring.cell h ∧ fs = g.got ++ ws ∧
    ∀ o, g.read = some o → ∃ f rest, ws = f :: rest ∧ Reads ring s h f o

theorem Holds.first_iff {p : Byte} (hs : s.Holds ring b h fs j) (hp : page p = ring.cell h) :
    p = s.curpag ↔ fs = [] := by
  have hcurpag := hs.curpag
  have hnear := hs.near
  have hb := hs.boundary_le
  constructor
  · intro heq
    cases fs with
    | nil => rfl
    | cons f fs =>
      have hspan := span_gt f
      have hle := hs.chain.2.le
      rw [heq, hcurpag] at hp
      exact absurd hp.symm (Cyclic.cell_ne (by omega) (by omega))
  · intro hnil
    rw [hnil] at hs
    have hat : h = j := hs.chain
    apply page_inj
    rw [hp, hat, hcurpag]

theorem Reads.header {f o : List Byte} (hf : Stored ring s.mem h f) (hr : Reads ring s h f o)
    (hfour : 4 ≤ o.length) :
    frameLength o = 4 + f.length ∧ page (o.getD 1 0) = ring.cell (h + span f) := by
  obtain ⟨hlength, next, hpage, hbytes⟩ := hf
  have hread := hr.bytes
  unfold maxEthFrameSize at hlength
  have hheader : (Ne2000.header f next).length = 4 := rfl
  -- The first four bytes are the header.
  have hprefix : o.take 4 = Ne2000.header f next := by
    have htake := congrArg (List.take 4) hread
    rw [List.take_take, Cyclic.take_read, Nat.min_eq_left (by omega),
      Nat.min_eq_left (by omega)] at htake
    have hhead := congrArg (List.take 4) hbytes
    rw [Cyclic.take_read, Nat.min_eq_left (by omega), List.take_left' hheader] at hhead
    exact htake.trans hhead
  have hget : ∀ i < 4, o.getD i 0 = (Ne2000.header f next).getD i 0 := by
    intro i hi
    rw [← hprefix, List.getD_eq_getElem?_getD, List.getD_eq_getElem?_getD,
      List.getElem?_take_of_lt hi]
  constructor
  · unfold frameLength
    rw [hget 3 (by decide), hget 2 (by decide), toNat_pair]
    unfold Ne2000.header
    simp only [List.getD_cons_succ, List.getD_cons_zero]
    rw [BitVec.toNat_setWidth, BitVec.toNat_setWidth, BitVec.toNat_ushiftRight, BitVec.toNat_ofNat,
      Nat.shiftRight_eq_div_pow]
    omega
  · rw [hget 1 (by decide)]
    exact hpage

theorem Reads.frame {f o : List Byte} (hf : Stored ring s.mem h f) (hr : Reads ring s h f o)
    (hfour : 4 ≤ o.length) (hwhole : frameLength o ≤ o.length) :
    (o.take (frameLength o)).drop 4 = f := by
  obtain ⟨htotal, -⟩ := hr.header hf hfour
  obtain ⟨hlength, next, hpage, hbytes⟩ := hf
  have hheader : (Ne2000.header f next).length = 4 := rfl
  rw [htotal] at hwhole ⊢
  rw [hr.bytes, Nat.min_eq_right hwhole, hbytes, List.drop_left' hheader]

theorem Reads.congr {o : List Byte} (hr : Reads ring s h f o) (hrsar : t.rsar = s.rsar)
    (hdcfg : t.dcfg = s.dcfg)
    (hsame : ∀ k, h ≤ k → k < h + span f → t.mem (ring.cell k) = s.mem (ring.cell k)) :
    Reads ring t h f o := by
  have hspan := span_gt f
  refine ⟨?_, ?_, ?_⟩
  · rw [hrsar]
    exact hr.rsar
  · rw [hdcfg]
    exact hr.even
  · rw [hr.bytes]
    symm
    apply Cyclic.read_congr
    intro k hk hlt
    exact hsame k hk (by omega)

theorem Reads.data {o : List Byte} (hr : Reads ring s h f o) (hs : s.SetUp ring) (hh : 256 ∣ h) :
    Reads ring s.asicIoportRead.2 h f (o ++ s.dataBytes) := by
  obtain ⟨hkeeps, -, hdcfg⟩ := s.asicIoportRead_keeps ring
  have heven : s.dcfg.getLsbD 0 = true → 2 ∣ h + o.length := by
    intro hword
    exact Nat.dvd_add (Nat.dvd_trans (by decide) hh) (hr.even hword)
  obtain ⟨hbytes, hrsar⟩ := data_spec hs hr.rsar heven
  have hlength := s.length_dataBytes
  have hmem : ∀ i n, ring.read s.asicIoportRead.2.mem i n = ring.read s.mem i n := by
    intro i n
    apply Cyclic.read_congr
    intro k _ _
    exact hkeeps.mem _ (ring.cell_inside k)
  refine ⟨?_, ?_, ?_⟩
  · rw [hrsar, List.length_append, hlength, Nat.add_assoc]
  · intro hword
    rw [hdcfg] at hword
    rw [List.length_append, hlength]
    apply Nat.dvd_add (hr.even hword)
    unfold width
    rw [if_pos hword]
  · rw [hmem, List.take_append, hr.bytes, hbytes, Cyclic.take_read, List.length_append,
      Cyclic.length_read]
    rcases Nat.le_total o.length (4 + f.length) with hle | hge
    · have hsum : min (o.length + s.width) (4 + f.length) =
          o.length + min (4 + f.length - o.length) s.width := by omega
      rw [Nat.min_eq_left hle, hsum, Cyclic.read_add]
    · have hnone : 4 + f.length - o.length = 0 := Nat.sub_eq_zero_of_le hge
      rw [Nat.min_eq_right hge, hnone, Nat.zero_min, Nat.min_eq_right (by omega)]
      exact List.append_nil _

theorem SetUp.idle (hset : s.SetUp ring) (hboundary : ring.Inside (page s.boundary))
    (hcurpag : ring.Inside (page s.curpag)) : ∃ b j, s.Holds ring b j [] j := by
  have hb := Cyclic.cell_sub_base hboundary
  have hj := Cyclic.cell_ahead (i := page s.boundary - ring.base) hcurpag
  have hlt := ring.ahead_lt (ring.cell (page s.boundary - ring.base)) (page s.curpag)
  have hdvd := hset.page_dvd hj.symm
  exact ⟨_, _, hset, hb.symm, hj.symm, hdvd, hdvd, hset.page_dvd hb.symm, Nat.le_add_right _ _,
    Nat.add_lt_add_left hlt _, rfl⟩

theorem RxRun.follows {g : Guest} (hrun : RxRun ring s g fs) : g.Follows ring s fs := by
  induction hrun with
  | @start s hset hboundary hcurpag =>
    obtain ⟨b, j, hs⟩ := hset.idle hboundary hcurpag
    exact ⟨b, j, j, [], hs, hs.curpag, rfl, fun _ h => (by cases h)⟩
  | @receive s t g fs buf size _ hroom ht ih =>
    obtain ⟨b, h, j, ws, hs, hfirst, hfs, hreads⟩ := ih
    by_cases htakes : s.takes buf size = true
    · rw [if_pos htakes]
      obtain ⟨hs', hrsar, hdcfg, hsame⟩ := hs.receive htakes (hroom htakes) ht
      refine ⟨b, h, _, _, hs', hfirst, ?_, fun o ho => ?_⟩
      · rw [hfs, List.append_assoc]
      · obtain ⟨f, rest, hws, hr⟩ := hreads o ho
        rw [hws] at hs ⊢
        have hle := hs.chain.2.le
        exact ⟨f, _, List.cons_append, hr.congr hrsar hdcfg fun k hk hlt => hsame k hk (by omega)⟩
    · rw [if_neg htakes]
      unfold Ne2000.receive at ht
      rw [if_neg htakes] at ht
      cases ht
      exact ⟨b, h, j, ws, hs, hfirst, hfs, hreads⟩
  | @other s t g fs _ hkeeps hinside hahead ih =>
    obtain ⟨b, h, j, ws, hs, hfirst, hfs, hreads⟩ := ih
    rw [hfirst] at hahead
    obtain ⟨b', hs'⟩ := hs.keep hkeeps hinside hahead
    refine ⟨b', h, j, ws, hs', hfirst, hfs, fun o ho => ?_⟩
    unfold Guest.after at ho
    dsimp only at ho
    split at ho
    · rename_i hsame
      obtain ⟨f, rest, hws, hr⟩ := hreads o ho
      exact ⟨f, rest, hws, hr.congr hsame.1 hsame.2
        fun k _ _ => hkeeps.mem _ (ring.cell_inside k)⟩
    · cases ho
  | @point s g fs _ hwaits hrsar ih =>
    obtain ⟨b, h, j, ws, hs, hfirst, hfs, -⟩ := ih
    refine ⟨b, h, j, ws, hs, hfirst, hfs, fun o ho => ?_⟩
    cases ho
    cases ws with
    | nil => exact absurd ((hs.first_iff hfirst).mpr rfl) hwaits
    | cons f rest =>
      refine ⟨f, rest, rfl, hrsar.trans hfirst, fun _ => Nat.dvd_zero 2, ?_⟩
      rw [List.take_nil, List.length_nil, Nat.zero_min]
      rfl
  | @data s g fs _ ih =>
    obtain ⟨b, h, j, ws, hs, hfirst, hfs, hreads⟩ := ih
    obtain ⟨hkeeps, hboundary, -⟩ := s.asicIoportRead_keeps ring
    have hinside := ring.cell_inside b
    rw [← hs.boundary] at hinside
    obtain ⟨b', hs'⟩ := hs.keep hkeeps (by rw [hboundary]; exact hinside) (by
      have hself := Cyclic.ahead_cell (Nat.le_refl b) (Nat.lt_add_of_pos_right ring.size_pos)
      rw [hboundary, hs.boundary, hself, Nat.sub_self]
      exact Nat.zero_le _)
    refine ⟨b', h, j, ws, hs', hfirst, hfs, fun o ho => ?_⟩
    obtain ⟨o', ho', rfl⟩ := Option.map_eq_some_iff.mp ho
    obtain ⟨f, rest, hws, hr⟩ := hreads o' ho'
    exact ⟨f, rest, hws, hr.data hs.setUp hs.dvd_first⟩
  | @take s g fs o _ hread hfour hwhole ih =>
    obtain ⟨b, h, j, ws, hs, hfirst, hfs, hreads⟩ := ih
    obtain ⟨f, rest, hws, hr⟩ := hreads o hread
    rw [hws] at hs
    obtain ⟨-, hnext⟩ := hr.header hs.chain.1 hfour
    have hframe := hr.frame hs.chain.1 hfour hwhole
    refine ⟨b, h + span f, j, rest, ⟨hs.setUp, hs.boundary, hs.curpag, ?_, hs.dvd_next,
      hs.dvd_boundary, ?_, hs.near, hs.chain.2⟩, hnext, ?_, fun _ ho => (by cases ho)⟩
    · exact Nat.dvd_add hs.dvd_first (span_dvd f)
    · exact Nat.le_trans hs.boundary_le (Nat.le_add_right _ _)
    · unfold Guest.taken
      rw [hfs, hws, hframe, List.append_assoc, List.singleton_append]

theorem RxRun.short {g : Guest} (hrun : RxRun ring s g fs) (hsize : size ≤ 1272)
    (htakes : s.takes buf size = true) : span (padded buf size) < s.available.toNat := by
  obtain ⟨b, h, j, ws, hs, -⟩ := hrun.follows
  obtain ⟨-, hfree⟩ := hs.takes htakes
  have hlength := length_padded buf size
  rw [hs.available]
  unfold span
  omega

/-- Where a frame fills the ring, the ring looks empty, and the next frame is written over those
that wait. -/
theorem RxRun.full {g : Guest} (hrun : RxRun ring s g fs) (htakes : s.takes buf size = true)
    (hfull : span (padded buf size) = s.available.toNat) (ht : s.receive buf size = some t) :
    t.curpag = t.boundary ∧ t.bufferFull = false := by
  obtain ⟨b, h, j, ws, hs, -⟩ := hrun.follows
  obtain ⟨hlength, hfree⟩ := hs.takes htakes
  have hb := hs.boundary_le
  have hle := hs.chain.le
  have hnear := hs.near
  rw [hs.available] at hfull
  unfold Ne2000.receive at ht
  rw [if_pos htakes] at ht
  dsimp only at ht
  rw [hs.written] at ht
  generalize padded buf size = f at *
  have hnext := hs.nextFrame hlength (by omega)
  generalize s.nextFrame f.length = next at *
  have hend : j + span f = b + ring.size := by omega
  rw [hend, Cyclic.cell_add_size, ← hs.boundary, ← page_word] at hnext
  have hcurpag : (next >>> 8).setWidth 8 = s.boundary := by
    have hdvd := hs.setUp.cell_dvd hs.dvd_boundary
    have hinside := (ring.cell_inside b).2
    have hhigh := hs.setUp.high
    rw [BitVec.eq_of_toNat_eq hnext]
    apply page_inj
    rw [page_of, page_word]
    all_goals rw [page_word, hs.boundary]
    · exact hdvd
    · omega
  cases ht
  refine ⟨hcurpag, ?_⟩
  have hempty : Holds { s with curpag := s.boundary } ring b b [] b := by
    have hset := hs.setUp
    exact ⟨⟨hset.start, hset.stop, hset.base_dvd, hset.size_dvd, hset.low, hset.high⟩,
      hs.boundary, hs.boundary, hs.dvd_boundary, hs.dvd_boundary, hs.dvd_boundary, Nat.le_refl b,
      Nat.lt_add_of_pos_right ring.size_pos, rfl⟩
  have hspace := hempty.bufferFull
  rw [Nat.sub_self, decide_eq_false (by omega)] at hspace
  rw [← hspace]
  unfold Ne2000.bufferFull Ne2000.available updateIrq
  dsimp only
  rw [hcurpag]

/-- `n` accesses to the data port, and what they give. -/
def readPort (s : Ne2000) : Nat → List Byte × Ne2000
  | 0 => ([], s)
  | n + 1 =>
    let (o, t) := s.readPort n
    (o ++ t.dataBytes, t.asicIoportRead.2)

theorem RxRun.readPort {g : Guest} {o : List Byte} (hrun : RxRun ring s g fs)
    (ho : g.read = some o) (n : Nat) :
    RxRun ring (s.readPort n).2 { g with read := some (o ++ (s.readPort n).1) } fs ∧
      n ≤ (s.readPort n).1.length := by
  induction n with
  | zero =>
    refine ⟨?_, Nat.zero_le _⟩
    have hnone : o ++ (s.readPort 0).1 = o := List.append_nil o
    rw [hnone, ← ho]
    exact hrun
  | succ n ih =>
    obtain ⟨hrun', hn⟩ := ih
    refine ⟨?_, ?_⟩
    · have hnext := hrun'.data
      have happend : o ++ (s.readPort (n + 1)).1 =
          o ++ (s.readPort n).1 ++ (s.readPort n).2.dataBytes := (List.append_assoc _ _ _).symm
      rw [happend]
      exact hnext
    · have hwidth : 1 ≤ (s.readPort n).2.width := by
        unfold width
        split <;> decide
      change n + 1 ≤ ((s.readPort n).1 ++ (s.readPort n).2.dataBytes).length
      rw [List.length_append, length_dataBytes]
      omega

/-- The guest selects the first page of registers and sets the remote address. -/
def pointed (s : Ne2000) (p : Byte) : Ne2000 :=
  ((s.ioportWrite 0 0x22).ioportWrite 8 0).ioportWrite 9 p

theorem pointed_spec (s : Ne2000) (ring : Cyclic) (p : Byte) :
    KeepsRing ring s (s.pointed p) ∧ (s.pointed p).boundary = s.boundary ∧
      (s.pointed p).rsar.toNat = page p := by
  have hcmd : s.ioportWrite 0 0x22 = { s with cmd := 0x22, isr := s.isr &&& ~~~0x80 } := by
    unfold ioportWrite writeCmd completeEmpty
    dsimp only
    rw [if_pos (by decide), if_neg (by decide), if_neg (by decide),
      if_neg fun hdma => absurd hdma.1 (by decide)]
  have hwrite : ∀ (u : Ne2000) (addr : Word) (val : Byte), u.cmd = 0x22 → addr &&& 0xf ≠ 0 →
      u.ioportWrite addr val = u.writeRegister val (addr &&& 0xf).toNat := by
    intro u addr val hu haddr
    unfold ioportWrite register
    rw [if_neg haddr, hu]
    rfl
  have hframe : s.pointed p = { s with
      cmd := 0x22
      isr := s.isr &&& ~~~0x80
      rsar := (s.rsar &&& (0xff00 : Word) ||| (0 : Byte).setWidth 32) &&& (0x00ff : Word) |||
        p.setWidth 32 <<< 8 } := by
    unfold pointed
    rw [hcmd, hwrite _ 8 0 rfl (by decide), hwrite _ 9 p rfl (by decide)]
    rfl
  have hclear :
      (s.rsar &&& (0xff00 : Word) ||| (0 : Byte).setWidth 32) &&& (0x00ff : Word) = 0 := by
    have hzero : (0 : Byte).setWidth 32 = 0#32 := rfl
    have hmask : (0xff00 : Word) &&& 0x00ff = 0#32 := rfl
    rw [hzero, BitVec.or_zero, BitVec.and_assoc, hmask, BitVec.and_zero]
    rfl
  rw [hframe]
  refine ⟨⟨rfl, rfl, rfl, fun _ _ => rfl⟩, rfl, ?_⟩
  dsimp only
  rw [hclear]
  exact (congrArg BitVec.toNat BitVec.zero_or).trans (page_word p)

/-- What the guest gets that points at the page of the next frame and reads `n` times. -/
def nextPacket (s : Ne2000) (g : Guest) (n : Nat) : List Byte × Ne2000 :=
  (s.pointed g.first).readPort n

theorem RxRun.next {g : Guest} (hrun : RxRun ring s g fs) (hwaits : g.got ≠ fs) :
    ∃ n, RxRun ring (s.nextPacket g n).2 (g.taken (s.nextPacket g n).1) fs ∧
      (g.taken (s.nextPacket g n).1).got = fs.take (g.got.length + 1) := by
  obtain ⟨b, h, j, ws, hs, hfirst, hfs, -⟩ := hrun.follows
  obtain ⟨hkeeps, hboundary, hrsar⟩ := s.pointed_spec ring g.first
  have hinside := ring.cell_inside b
  rw [← hs.boundary] at hinside
  have hpointed : RxRun ring (s.pointed g.first) (g.after s (s.pointed g.first)) fs := by
    apply hrun.other hkeeps
    · rw [hboundary]
      exact hinside
    · have hself := Cyclic.ahead_cell (Nat.le_refl b) (Nat.lt_add_of_pos_right ring.size_pos)
      rw [hboundary, hs.boundary, hself, Nat.sub_self]
      exact Nat.zero_le _
  have hnew : g.first ≠ (s.pointed g.first).curpag := by
    rw [hkeeps.curpag]
    intro heq
    rw [(hs.first_iff hfirst).mp heq, List.append_nil] at hfs
    exact hwaits hfs.symm
  obtain ⟨hrun', hlong⟩ := (hpointed.point hnew hrsar).readPort rfl 1518
  refine ⟨1518, ?_⟩
  unfold nextPacket
  generalize (s.pointed g.first).readPort 1518 = packet at *
  obtain ⟨o, t⟩ := packet
  dsimp only at hrun' hlong ⊢
  obtain ⟨b', h', j', ws', hs', -, hfs', hreads⟩ := hrun'.follows
  obtain ⟨f, rest, hws, hr⟩ := hreads o rfl
  rw [hws] at hs' hfs'
  obtain ⟨htotal, -⟩ := hr.header hs'.chain.1 (by omega)
  have hlength := hs'.chain.1.length
  unfold maxEthFrameSize at hlength
  have hframe := hr.frame hs'.chain.1 (by omega) (by omega)
  refine ⟨hrun'.take rfl (by omega) (by omega), ?_⟩
  change fs = g.got ++ f :: rest at hfs'
  unfold Guest.taken
  rw [hframe, hfs', List.take_length_add_append]
  rfl

/-- The guest has the frames that have arrived, in order and each once, up to those that wait; it
is at the page of the next one when it has them all, and otherwise reads another one from there.
Frames of up to 1272 bytes always leave a page free, and storing a frame always comes to an end. -/
theorem frames_in_order {g : Guest} (hrun : RxRun ring s g fs) :
    g.got <+: fs ∧ (g.first = s.curpag ↔ g.got = fs) ∧
      (g.got ≠ fs → ∃ n, RxRun ring (s.nextPacket g n).2 (g.taken (s.nextPacket g n).1) fs ∧
        (g.taken (s.nextPacket g n).1).got = fs.take (g.got.length + 1)) ∧
      (∀ buf size, size ≤ 1272 → s.takes buf size = true →
        span (padded buf size) < s.available.toNat) ∧
      ∀ buf size, ∃ t, s.receive buf size = some t := by
  obtain ⟨b, h, j, ws, hs, hfirst, hfs, -⟩ := hrun.follows
  refine ⟨⟨ws, hfs.symm⟩, ?_, hrun.next, fun buf size => hrun.short,
    fun buf size => hs.receive_some buf size⟩
  rw [hs.first_iff hfirst, hfs]
  constructor
  · intro hnil
    rw [hnil, List.append_nil]
  · intro heq
    exact List.self_eq_append_right.mp heq

theorem cardRing_pos : 0 < 0x4000 := by decide

def cardRing : Cyclic := ⟨0x4000, 0x4000, cardRing_pos⟩

/-- A card with a ring of 64 pages, which takes all frames. -/
def card : Ne2000 :=
  { init (fun _ => 0) with
    cmd := 0x22
    start := 0x4000
    stop := 0x8000
    boundary := 0x40
    curpag := 0x40
    rxcr := 0x10
    dcfg := 0x01 }

theorem card_run : RxRun cardRing card ⟨0x40, none, []⟩ [] := by
  apply RxRun.start (s := card)
  · exact ⟨rfl, rfl, by decide, by decide, by decide, by decide⟩
  · exact ⟨by decide, by decide⟩
  · exact ⟨by decide, by decide⟩

/-- A frame arrives, and the guest reads it. -/
theorem frames_in_order_card :
    ∃ s n, card.receive (fun _ => 0) 64 = some s ∧
      (Guest.taken ⟨0x40, none, []⟩ (s.nextPacket ⟨0x40, none, []⟩ n).1).got =
        [padded (fun _ => 0) 64] := by
  have htakes : card.takes (fun _ => 0) 64 = true := by decide
  obtain ⟨-, -, -, hshort, hstores⟩ := frames_in_order card_run
  obtain ⟨s, hs⟩ := hstores (fun _ => 0) 64
  have hrun := card_run.receive (fun _ => 0) 64 (hshort _ _ (by decide)) hs
  rw [if_pos htakes] at hrun
  obtain ⟨-, -, hnext, -⟩ := frames_in_order hrun
  obtain ⟨n, -, hgot⟩ := hnext (List.cons_ne_nil _ _).symm
  exact ⟨s, n, hs, hgot⟩

end Ne2000

end Winspire.Net
