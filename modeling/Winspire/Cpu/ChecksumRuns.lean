import Winspire.Cpu.Checksum
import Winspire.Cpu.ViewFetch

/-!
# The checksum loop, instruction by instruction

Where code, accumulator and source lie in memory, each of the twelve instructions runs to its
end, and the loop goes through the source words one by one.
-/

namespace Winspire.Cpu

open Faulting Pages Marking

set_option autoImplicit false

def CPUI386.loopAt (s : CPUI386) : Word := (s.seg .cs).base + s.ip

/-- The linear address of the accumulator. -/
def CPUI386.sumAt (s : CPUI386) : Word := (s.seg .ss).base + (s.gpr 5 + 8)

/-- The linear address of the first source word. -/
def CPUI386.sourceAt (s : CPUI386) : Word := (s.seg .ds).base + s.gpr 0

def signatureByte (k : Nat) : Byte := checksumSignature.getD k 0

/-- The bytes of the loop, of its accumulator and of `n` source words lie in memory, and the
accumulator apart from the code and from all words but the first, which is read before the
accumulator is written. -/
structure ChecksumPlace (s : CPUI386) (n : Nat) where
  code : Nat → Word
  sum : Nat → Word
  source : Nat → Word
  codeLies : ∀ k, k < 31 → s.Lies false (linear s.loopAt k) (code k)
  sumLies : ∀ k, k < 4 → s.Lies true (linear s.sumAt k) (sum k)
  sourceLies : ∀ k, k < 2 * n → s.Lies false (linear s.sourceAt k) (source k)
  signature : ∀ k, k < 31 → s.mem (code k).toNat = signatureByte k
  stack : ¬ NullSegment s .ss
  data : ¬ NullSegment s .ds
  codeWrap : s.loopAt.toNat + 31 ≤ 2 ^ 32
  sumWrap : s.sumAt.toNat + 4 ≤ 2 ^ 32
  sourceWrap : s.sourceAt.toNat + 2 * n ≤ 2 ^ 32
  codeTop : s.ifetch.laddr = noPage → ∀ k, k < 31 → page 12 (linear s.loopAt k) ≠ lastPage
  sumCode : ∀ j k, j < 4 → k < 31 → sum j ≠ code k
  sumSource : ∀ j k, j < 4 → 2 ≤ k → k < 2 * n → sum j ≠ source k

namespace ChecksumPlace

variable {s : CPUI386} {n : Nat}

inductive Pages (s : CPUI386) (n : Nat) : Word → Bool → Prop where
  | code {k : Nat} (h : k < 31) : Pages s n (linear s.loopAt k >>> 12) false
  | sum {k : Nat} (h : k < 4) (write : Bool) : Pages s n (linear s.sumAt k >>> 12) write
  | source {k : Nat} (h : k < 2 * n) : Pages s n (linear s.sourceAt k >>> 12) false

/-- The accumulator overwritten with `v`. -/
def held (pl : ChecksumPlace s n) (v : Word) : Nat → Option Byte :=
  put (fun _ => none) pl.sum v .b32

theorem spread (pl : ChecksumPlace s n) : Spread .b32 pl.sum := by
  intro j k hj hk heq
  apply linear_inj hj hk
  rw [← (pl.sumLies j hj).placed.offset, ← (pl.sumLies k hk).placed.offset, heq]

/-- What a run of the loop shows where it has come to. `R` are the pages of data it has looked
at. -/
structure Reached (pl : ChecksumPlace s n) (R : Word → Bool → Prop) (v : Word) (pos : Nat)
    (g : Fin 8 → Word) (f : LazyFlags) (t : CPUI386) : Prop where
  view : View s (Pages s n) (pl.held v) t
  nextIp : t.nextIp = s.ip + BitVec.ofNat 32 pos
  gpr : t.gpr = g
  flags : t.toLazyFlags = f
  code : ∀ k, k < pos → t.Has (linear s.loopAt k >>> 12) false
  data : ∀ l write, R l write → t.Has l write
  top : t.ifetch.laddr = noPage → s.ifetch.laddr = noPage

/-- Inside the instruction at `start`. -/
structure Within (pl : ChecksumPlace s n) (R : Word → Bool → Prop) (v : Word) (start pos : Nat)
    (g : Fin 8 → Word) (f : LazyFlags) (t : CPUI386) : Prop
    extends Reached pl R v pos g f t where
  ip : t.ip = s.ip + BitVec.ofNat 32 start
  decodes : t.Decodes

variable {pl : ChecksumPlace s n} {R R' : Word → Bool → Prop} {v v' : Word} {start pos : Nat}
  {g : Fin 8 → Word} {f : LazyFlags} {t u : CPUI386}

theorem shows_code (pl : ChecksumPlace s n) (v : Word) {k : Nat} (hk : k < 31) :
    s.shows (pl.held v) (pl.code k) = signatureByte k := by
  have hother : pl.held v (pl.code k).toNat = none := by
    apply put_other
    intro j hj heq
    exact pl.sumCode j k hj hk (BitVec.eq_of_toNat_eq heq.symm)
  rw [CPUI386.shows, hother]
  exact pl.signature k hk

theorem byteOf_leWord (f : Nat → Byte) {k : Nat} (hk : k < 4) : byteOf (leWord f .b32) k = f k := by
  apply BitVec.eq_of_getLsbD_eq
  intro i hi
  unfold leWord byteOf
  simp only [BitVec.getLsbD_setWidth, BitVec.getLsbD_ushiftRight, BitVec.getLsbD_append]
  obtain rfl | rfl | rfl | rfl : k = 0 ∨ k = 1 ∨ k = 2 ∨ k = 3 := by omega
  all_goals grind

def initial (pl : ChecksumPlace s n) : Word := leWord (fun k => s.mem (pl.sum k).toNat) .b32

theorem held_initial (pl : ChecksumPlace s n) {a : Nat} {b : Byte}
    (h : pl.held pl.initial a = some b) : b = s.mem a ∧ ¬ s.InTables a := by
  by_cases hk : ∃ k, k < 4 ∧ a = (pl.sum k).toNat
  · obtain ⟨k, hk, rfl⟩ := hk
    have hat : pl.held pl.initial (pl.sum k).toNat = some (byteOf pl.initial k) := put_at pl.spread hk
    have hb : byteOf pl.initial k = s.mem (pl.sum k).toNat := byteOf_leWord _ hk
    rw [hat, hb] at h
    exact ⟨(Option.some.inj h).symm, (pl.sumLies k hk).apart⟩
  · have hnone : pl.held pl.initial a = none := put_other fun k hk4 heq => hk ⟨k, hk4, heq⟩
    rw [hnone] at h
    cases h

theorem shows_source (pl : ChecksumPlace s n) {v : Word} {i k : Nat}
    (hfirst : i = 0 → v = pl.initial) (hi : i < n) (hk : k < 2) :
    s.shows (pl.held v) (pl.source (2 * i + k)) = s.mem (pl.source (2 * i + k)).toNat := by
  rw [CPUI386.shows]
  by_cases h0 : i = 0
  · cases hat : pl.held v (pl.source (2 * i + k)).toNat with
    | none => rfl
    | some b =>
      rw [hfirst h0] at hat
      exact (pl.held_initial hat).1
  · have hother : pl.held v (pl.source (2 * i + k)).toNat = none := by
      apply put_other
      intro j hj heq
      exact pl.sumSource j (2 * i + k) hj (by omega) (by omega) (BitVec.eq_of_toNat_eq heq.symm)
    rw [hother]
    rfl

theorem leWord_byteOf (v : Word) : leWord (byteOf v) .b32 = v := by
  apply BitVec.eq_of_getLsbD_eq
  intro i hi
  unfold leWord byteOf
  simp only [BitVec.getLsbD_append, BitVec.getLsbD_setWidth, BitVec.getLsbD_ushiftRight]
  split
  · rename_i h
    simp [h]
  · split
    · rename_i h
      have heq : 8 + (i - 8) = i := by omega
      simp [h, heq]
    · split
      · rename_i h
        have heq : 8 * 2 + (i - 8 - 8) = i := by omega
        simp [h, heq]
      · have hlt : i - 8 - 8 - 8 < 8 := by omega
        have heq : 8 * 3 + (i - 8 - 8 - 8) = i := by omega
        simp [hlt, heq]

theorem shows_sum (pl : ChecksumPlace s n) (v : Word) :
    leWord (fun k => s.shows (pl.held v) (pl.sum k)) .b32 = v := by
  have h : ∀ k, k < 4 → s.shows (pl.held v) (pl.sum k) = byteOf v k := by
    intro k hk
    have hat : pl.held v (pl.sum k).toNat = some (byteOf v k) := put_at pl.spread hk
    rw [CPUI386.shows, hat]
    rfl
  have hcongr := @leWord_congr .b32 _ _ h
  rw [hcongr]
  exact leWord_byteOf v

theorem Reached.codeAddr (h : Reached pl R v pos g f t) : t.codeAddr = linear s.loopAt pos := by
  rw [CPUI386.codeAddr, h.view.seg, h.nextIp]
  exact (BitVec.add_assoc _ _ _).symm

theorem Reached.next (h : Reached pl R v pos g f t) (hpos : pos < 31) :
    View.Next s (Pages s n) t (pl.code pos) where
  lies := by
    rw [h.codeAddr]
    exact pl.codeLies pos hpos
  page := by
    rw [h.codeAddr]
    exact .code hpos
  top ht := by
    rw [h.codeAddr]
    exact pl.codeTop (h.top ht) pos hpos

theorem Within.glance (h : Within pl R v start pos g f t) {m : Nat}
    (hg : Glance s (Pages s n) (pl.held v) (BitVec.ofNat 32 m) t u) (hd : u.Decodes)
    (hc : ∀ k, pos ≤ k → k < pos + m → u.Has (linear s.loopAt k >>> 12) false) :
    Within pl R v start (pos + m) g f u where
  view := hg.view
  nextIp := by
    rw [hg.nextIp, h.nextIp, BitVec.add_assoc, ← BitVec.ofNat_add]
  gpr := hg.gpr.trans h.gpr
  flags := hg.flags.trans h.flags
  code k hk := by
    by_cases hlt : k < pos
    · exact hg.later _ _ (h.code k hlt)
    · exact hc k (Nat.le_of_not_lt hlt) hk
  data l write hR := hg.later l write (h.data l write hR)
  top ht := h.top (hg.top ht)
  ip := hg.ip.trans h.ip
  decodes := hd

theorem Within.look (h : Within pl R v start pos g f t)
    (hl : Look s (Pages s n) (pl.held v') t u)
    (hR : ∀ l write, R' l write → R l write ∨ u.Has l write) :
    Within pl R' v' start pos g f u where
  view := hl.view
  nextIp := hl.toGlance.same_ip.trans h.nextIp
  gpr := hl.gpr.trans h.gpr
  flags := hl.flags.trans h.flags
  code k hk := hl.later _ _ (h.code k hk)
  data l write hR' := by
    rcases hR l write hR' with hr | hr
    · exact hl.later l write (h.data l write hr)
    · exact hr
  top ht := h.top (hl.top ht)
  ip := hl.ip.trans h.ip
  decodes hp := by
    rw [hl.ifetch] at hp
    have hcs : u.seg = t.seg := by rw [hl.view.seg, h.view.seg]
    have hd := h.decodes hp
    refine ⟨?_, ?_, ?_, ?_⟩
    · rw [hl.ifetch]
      exact hd.kept
    · rw [hl.ifetch, hcs, hl.ip]
      exact hd.start
    · rw [hcs, hl.ip]
      exact hd.room
    · rw [hl.ifetch, hcs, hl.ip, hl.toGlance.same_ip]
      exact hd.paddr

theorem Within.length (h : Within pl R v start pos g f t) (hs : start ≤ pos) (hp : pos ≤ 31) :
    (t.nextIp - t.ip).toNat = pos - start := by
  obtain ⟨m, rfl⟩ := Nat.exists_eq_add_of_le hs
  have hm : m % 2 ^ 32 = m := Nat.mod_eq_of_lt (by omega)
  rw [h.nextIp, h.ip, BitVec.ofNat_add, ← BitVec.add_assoc, BitVec.add_comm _ (BitVec.ofNat 32 m),
    BitVec.add_sub_cancel, BitVec.toNat_ofNat, hm, Nat.add_sub_cancel_left]

theorem Within.short (h : Within pl R v start pos g f t) (hs : start ≤ pos) (hp : pos ≤ 31)
    {m : Nat} (hm : pos - start + m ≤ 17) : t.Short m := by
  intro _
  rw [h.length hs hp]
  exact hm

theorem Within.fetch8 (h : Within pl R v start pos g f t) (hs : start ≤ pos) (hp : pos < 31)
    (hlen : pos - start < 17) :
    ∃ u, Cpu.fetch8 t = .ok (signatureByte pos) u ∧ Within pl R v start (pos + 1) g f u := by
  obtain ⟨u, hrun, hg, hd, hhas⟩ :=
    h.view.fetch8 h.decodes (h.next hp) (h.short hs (Nat.le_of_lt hp) (by omega))
  rw [shows_code pl v hp] at hrun
  refine ⟨u, hrun, h.glance hg hd ?_⟩
  intro k hk hkp
  obtain rfl : k = pos := by omega
  rw [h.codeAddr] at hhas
  exact hhas

theorem Within.peek8a (h : Within pl R v start pos g f t) (hs : start ≤ pos) (hp : pos < 31)
    (hlen : pos - start < 17) :
    ∃ u, Cpu.peek8a t = .ok (signatureByte pos) u ∧ Within pl R v start pos g f u := by
  obtain ⟨u, hrun, hg, hd, -, -⟩ :=
    h.view.peek8a h.decodes (h.next hp) (h.short hs (Nat.le_of_lt hp) (by omega))
  rw [shows_code pl v hp] at hrun
  exact ⟨u, hrun, @Within.glance _ _ _ _ _ _ _ _ _ _ _ h 0 hg hd (fun k hk hlt => by omega)⟩

theorem Within.fetch32 (h : Within pl R v start pos g f t) (hs : start ≤ pos) (hp : pos + 4 ≤ 31)
    (hlen : pos - start + 4 ≤ 17) :
    ∃ u, Cpu.fetch32 t = .ok (leWord (fun k => signatureByte (pos + k)) .b32) u ∧
      Within pl R v start (pos + 4) g f u := by
  have hlin : ∀ k, linear t.codeAddr k = linear s.loopAt (pos + k) := by
    intro k
    rw [h.codeAddr]
    unfold linear
    rw [BitVec.add_assoc, ← BitVec.ofNat_add]
  have hnext : View.NextWord s (Pages s n) t (fun k => pl.code (pos + k)) := by
    refine ⟨?_, ?_, (h.next (by omega)).top, ?_⟩
    · intro k hk
      rw [hlin]
      exact pl.codeLies (pos + k) (by omega)
    · intro k hk
      change k < 4 at hk
      rw [hlin]
      exact .code (by omega)
    · have hw := pl.codeWrap
      rw [h.codeAddr, linear, BitVec.toNat_add, BitVec.toNat_ofNat]
      omega
  obtain ⟨u, hrun, hg, hd, hhas⟩ :=
    h.view.fetch32 h.decodes hnext (h.short hs (by omega) (by omega))
  have hval : leWord (fun k => s.shows (pl.held v) (pl.code (pos + k))) .b32 =
      leWord (fun k => signatureByte (pos + k)) .b32 :=
    leWord_congr fun k hk => shows_code pl v (by change k < 4 at hk; omega)
  rw [hval] at hrun
  refine ⟨u, hrun, h.glance hg hd ?_⟩
  intro k hk hkp
  have hh := hhas (k - pos) (by omega)
  rw [hlin, Nat.add_sub_cancel' hk] at hh
  exact hh

theorem Within.mono (h : Within pl R v start pos g f t) (hR : ∀ l write, R' l write → R l write) :
    Within pl R' v start pos g f t :=
  { h with data := fun l write hr => h.data l write (hR l write hr) }

/-- `R` and the pages of an access. -/
def Also (R : Word → Bool → Prop) (a : Word) (w : Width) (write : Bool) (l : Word) (b : Bool) :
    Prop :=
  R l b ∨ (b = write ∧ ∃ k, k < w.bytes ∧ l = linear a k >>> 12)

theorem translateW_access (w : Width) (rwm : Nat) (seg : SegReg) (addr : Word) (t : CPUI386) :
    translateW w rwm seg addr t = translate rwm seg addr w.bytes t.cpl t := by
  cases w <;> rfl

theorem access_view {P : Word → Bool → Prop} {O : Nat → Option Byte} (hv : View s P O t) {rwm : Nat}
    {seg : SegReg} {addr laddr : Word} {w : Width} (hk : IsRwm rwm)
    (hl : laddr = (s.seg seg).base + addr) (hseg : ¬ NullSegment s seg)
    (hwrap : laddr.toNat + w.bytes ≤ 2 ^ 32) (hP : Spans P (decide (1 < rwm)) laddr w)
    {q : Nat → Word}
    (hq : ∀ k, k < w.bytes → s.Placed (decide (1 < rwm)) (linear laddr k) (q k)) :
    ∃ res u, translateW w rwm seg addr t = .ok res u ∧
      PlacedAt s (decide (1 < rwm)) laddr w res ∧ Look s P O t u ∧
      ∀ k, k < w.bytes → u.Has (linear laddr k >>> 12) (decide (1 < rwm)) := by
  obtain ⟨res, u, hrun, hlook, -, hpl, hhas⟩ :=
    wp_returns (hv.translate hk hl (fun _ _ => hwrap) fun _ => hP.covers)
      (fun _ hf => hf.2.elim hseg fun ⟨k, hkw, hno⟩ => hno _ (hq k hkw))
      (fun _ ⟨k, hkw, hno⟩ => hno _ (hq k hkw))
  exact ⟨res, u, (translateW_access w rwm seg addr t).trans hrun, hpl, hlook, hhas⟩

theorem Within.also (h : Within pl R v start pos g f t) {a : Word} {w : Width} {write : Bool}
    (hl : Look s (Pages s n) (pl.held v) t u)
    (hhas : ∀ k, k < w.bytes → u.Has (linear a k >>> 12) write) :
    Within pl (Also R a w write) v start pos g f u := by
  refine h.look hl ?_
  rintro l write' (hr | ⟨rfl, k, hkw, rfl⟩)
  · exact Or.inl hr
  · exact Or.inr (hhas k hkw)

theorem lies_mono {write : Bool} {a q : Word} (h : s.Lies true a q) : s.Lies write a q where
  placed := by
    refine ⟨fun hpg => ?_, h.placed.flat⟩
    obtain ⟨p, hmaps, hallow, hx⟩ := h.placed.paged hpg
    refine ⟨p, hmaps, ?_, hx⟩
    unfold Page.allows at hallow ⊢
    cases write with
    | true => exact hallow
    | false =>
      rw [Bool.and_eq_true] at hallow
      rw [hallow.1]
      rfl
  ram := h.ram
  apart := h.apart

theorem Within.sum (h : Within pl R v start pos g f t) {rwm : Nat} (hk : IsRwm rwm) :
    ∃ res u, translateW .b32 rwm .ss (s.gpr 5 + 8) t = .ok res u ∧
      PlacedAt s (decide (1 < rwm)) s.sumAt .b32 res ∧
      Within pl (Also R s.sumAt .b32 (decide (1 < rwm))) v start pos g f u := by
  have hP : Spans (Pages s n) (decide (1 < rwm)) s.sumAt .b32 := fun _ hk4 => .sum hk4 _
  obtain ⟨res, u, hrun, hpl, hlook, hhas⟩ :=
    access_view h.view hk rfl pl.stack pl.sumWrap hP
      fun k hk4 => (lies_mono (pl.sumLies k hk4)).placed
  exact ⟨res, u, hrun, hpl, h.also hlook hhas⟩

theorem Within.sum_load (h : Within pl R v start pos g f t) {write : Bool} {res : OptAddr}
    (hpl : PlacedAt s write s.sumAt .b32 res) : loadW res .b32 t = .ok v t := by
  have hload := h.view.load hpl fun k hk => lies_mono (pl.sumLies k hk)
  rw [shows_sum] at hload
  exact hload

theorem Within.sum_store (h : Within pl R v start pos g f t) {res : OptAddr}
    (hpl : PlacedAt s true s.sumAt .b32 res) (v' : Word) :
    ∃ u, storeW res v' .b32 t = .ok () u ∧ Within pl R v' start pos g f u := by
  obtain ⟨u, hrun, hlook⟩ := h.view.store (v := v') hpl pl.sumLies
  have hput : put (pl.held v) pl.sum v' .b32 = pl.held v' := put_put _ _ _ _
  rw [hput] at hlook
  exact ⟨u, hrun, h.look hlook fun _ _ hr => Or.inl hr⟩

/-- Source word `i` as it lies in memory. -/
def sourceWord (pl : ChecksumPlace s n) (i : Nat) : BitVec 16 :=
  s.mem (pl.source (2 * i + 1)).toNat ++ s.mem (pl.source (2 * i)).toNat

theorem linear_linear (a : Word) (j k : Nat) : linear (linear a j) k = linear a (j + k) := by
  unfold linear
  rw [BitVec.add_assoc, ← BitVec.ofNat_add]

theorem source_view {O : Nat → Option Byte} (hv : View s (Pages s n) O t)
    {i : Nat} (hi : i < n)
    (hO : ∀ k, k < 2 → s.shows O (pl.source (2 * i + k)) = s.mem (pl.source (2 * i + k)).toNat) :
    ∃ res u, translateW .b16 1 .ds (s.gpr 0 + BitVec.ofNat 32 (2 * i)) t = .ok res u ∧
      loadW res .b16 u = .ok ((pl.sourceWord i).setWidth 32) u ∧
      Look s (Pages s n) O t u ∧
      ∀ k, k < 2 → u.Has (linear (linear s.sourceAt (2 * i)) k >>> 12) false := by
  have hq : ∀ k, k < Width.b16.bytes →
      s.Lies false (linear (linear s.sourceAt (2 * i)) k) (pl.source (2 * i + k)) := by
    intro k hk
    change k < 2 at hk
    rw [linear_linear]
    exact pl.sourceLies (2 * i + k) (by omega)
  have hwrap : (linear s.sourceAt (2 * i)).toNat + Width.b16.bytes ≤ 2 ^ 32 := by
    have hw := pl.sourceWrap
    change _ + 2 ≤ _
    rw [linear, BitVec.toNat_add, BitVec.toNat_ofNat]
    omega
  have hP : Spans (Pages s n) false (linear s.sourceAt (2 * i)) .b16 := by
    intro k hk
    change k < 2 at hk
    rw [linear_linear]
    exact .source (by omega)
  have hat : linear s.sourceAt (2 * i) =
      (s.seg .ds).base + (s.gpr 0 + BitVec.ofNat 32 (2 * i)) := BitVec.add_assoc _ _ _
  have hk : IsRwm 1 := Or.inl rfl
  obtain ⟨res, u, hrun, hpl, hlook, hhas⟩ :=
    access_view hv hk hat pl.data hwrap hP fun k hk => (hq k hk).placed
  refine ⟨res, u, hrun, ?_, hlook, hhas⟩
  have hbytes : ∀ k, k < Width.b16.bytes → s.shows O (pl.source (2 * i + k)) =
      s.mem (pl.source (2 * i + k)).toNat := hO
  have hval : leWord (fun k => s.mem (pl.source (2 * i + k)).toNat) .b16 =
      (pl.sourceWord i).setWidth 32 := rfl
  have hcongr := @leWord_congr .b16 _ _ hbytes
  rw [hlook.view.load hpl hq, hcongr, hval]

theorem Within.source (h : Within pl R v start pos g f t) {i : Nat} (hi : i < n)
    (hfirst : i = 0 → v = pl.initial) :
    ∃ res u, translateW .b16 1 .ds (s.gpr 0 + BitVec.ofNat 32 (2 * i)) t = .ok res u ∧
      loadW res .b16 u = .ok ((pl.sourceWord i).setWidth 32) u ∧
      Within pl (Also R (linear s.sourceAt (2 * i)) .b16 false) v start pos g f u := by
  obtain ⟨res, u, hrun, hload, hlook, hhas⟩ :=
    source_view h.view hi fun _ hk => shows_source pl hfirst hi hk
  exact ⟨res, u, hrun, hload, h.also hlook hhas⟩

theorem Within.setGpr (h : Within pl R v start pos g f t) (i : Fin 8) (x : Word) :
    Within pl R v start pos (Function.update g i x) f (t.setGpr i x) where
  view := h.view.regs rfl rfl rfl
  nextIp := h.nextIp
  gpr := by
    change Function.update t.gpr i x = _
    rw [h.gpr]
  flags := h.flags
  code k hk := (h.code k hk).machine rfl
  data l write hr := (h.data l write hr).machine rfl
  top := h.top
  ip := h.ip
  decodes hp := ⟨(h.decodes hp).kept, (h.decodes hp).start, (h.decodes hp).room,
    (h.decodes hp).paddr⟩

theorem Within.withFlags (h : Within pl R v start pos g f t) (f' : LazyFlags) :
    Within pl R v start pos g f' { t with toLazyFlags := f' } where
  view := h.view.regs rfl rfl rfl
  nextIp := h.nextIp
  gpr := h.gpr
  flags := rfl
  code k hk := (h.code k hk).machine rfl
  data l write hr := (h.data l write hr).machine rfl
  top := h.top
  ip := h.ip
  decodes hp := ⟨(h.decodes hp).kept, (h.decodes hp).start, (h.decodes hp).room,
    (h.decodes hp).paddr⟩

theorem Within.jump (h : Within pl R v start pos g f t) {d : Word}
    (hd : t.nextIp + d = s.ip) : Reached pl R v 0 g f (t.skip d) where
  view := h.view.regs rfl rfl rfl
  nextIp := hd.trans (BitVec.add_zero _).symm
  gpr := h.gpr
  flags := h.flags
  code _ hk := absurd hk (Nat.not_lt_zero _)
  data l write hr := (h.data l write hr).machine rfl
  top := h.top

/-- The dispatcher takes instructions by their first byte. -/
structure Plain (s : CPUI386) (f : LazyFlags) : Prop where
  code16 : s.code16 = false
  vm : hasBit f.flags VM = false

theorem Reached.insn (h : Reached pl R v pos g f t) (rest : Byte → M Unit)
    (h16 : s.code16 = false) (hpos : pos < 31) :
    ∃ u, Within pl R v pos (pos + 1) g f u ∧
      Cpu.insn rest t = execute rest (signatureByte pos) u := by
  have ht16 : t.code16 = false := by
    rw [h.view.frame]
    exact h16
  have hb : t.beginInsn = { t with ip := t.nextIp } := by
    unfold CPUI386.beginInsn
    rw [ht16]
    rfl
  have hreach : Reached pl R v pos g f t.beginInsn := by
    rw [hb]
    exact ⟨h.view.regs rfl rfl rfl, h.nextIp, h.gpr, h.flags, fun k hk => (h.code k hk).machine rfl,
      fun l write hr => (h.data l write hr).machine rfl, h.top⟩
  have hip : t.beginInsn.ip = t.beginInsn.nextIp := by rw [hb]
  obtain ⟨u, hrun, hg, hd, hhas⟩ := hreach.view.fetch8pf hip (hreach.next hpos)
  rw [shows_code pl v hpos] at hrun
  refine ⟨u, ?_, ?_⟩
  · refine ⟨⟨hg.view, ?_, hg.gpr.trans hreach.gpr, hg.flags.trans hreach.flags, ?_, ?_, ?_⟩, ?_, hd⟩
    · rw [hg.nextIp, hreach.nextIp, BitVec.ofNat_add, BitVec.add_assoc]
      rfl
    · intro k hk
      by_cases hlt : k < pos
      · exact hg.later _ _ (hreach.code k hlt)
      · obtain rfl : k = pos := by omega
        rw [hreach.codeAddr] at hhas
        exact hhas
    · exact fun l write hr => hg.later l write (hreach.data l write hr)
    · exact fun ht => hreach.top (hg.top ht)
    · rw [hg.ip, hip, hreach.nextIp]
  · unfold Cpu.insn
    rw [modify_bind_run, bind_run_ok hrun]

theorem Within.plain (h : Within pl R v start pos g f t) (hp : Plain s f) :
    ¬ (t.code16 = true ∨ hasBit t.flags VM = true) := by
  have h16 : t.code16 = s.code16 := by rw [h.view.frame]
  have hvm : t.flags = f.flags := by rw [h.flags]
  rw [h16, hvm, hp.code16, hp.vm]
  decide

theorem Within.sumOperand (h : Within pl R v start pos g f t) (hs : start ≤ pos) (hpos : pos < 31)
    (hlen : pos - start < 17) (hg : g 5 = s.gpr 5) (hb : signatureByte pos = 8) {rwm : Nat}
    (hk : IsRwm rwm) {modrm : Byte} (hm : modField modrm = 1) (hr : rmField modrm = 5) :
    ∃ res u, rmOperand .b32 rwm noPrefixes modrm t = .ok (.addr res) u ∧
      PlacedAt s (decide (1 < rwm)) s.sumAt .b32 res ∧
      Within pl (Also R s.sumAt .b32 (decide (1 < rwm))) v start (pos + 1) g f u := by
  obtain ⟨u, hrun, hu⟩ := h.fetch8 hs hpos hlen
  obtain ⟨res, u', hrun', hpl, hu'⟩ := hu.sum hk
  refine ⟨res, u', ?_, hpl, hu'⟩
  have hbase : t.gpr 5 = s.gpr 5 := by rw [h.gpr, hg]
  have haddr : modsib32 1 5 none t = .ok (s.gpr 5 + 8, .ss) u := by
    rw [hb] at hrun
    have hunf : modsib32 1 5 none t = (do
        let imm8 ← Cpu.fetch8
        return (t.gpr 5 + imm8.signExtend 32, SegReg.ss) : M (Word × SegReg)) t := by
      change ((Cpu.fetch8 >>= fun b => (pure (b.signExtend 32) : M Word)) >>=
        fun d => (pure (t.gpr 5 + d, SegReg.ss) : M (Word × SegReg))) t = _
      rw [bind_assoc_run]
      rfl
    rw [hunf, bind_run_ok hrun, hbase]
    rfl
  unfold rmOperand memOperand
  rw [if_neg (by rw [hm]; decide), hm, hr]
  refine (bind_run_ok (show modsib false 1 5 none t = _ from haddr)).trans ?_
  exact bind_run_ok hrun'

theorem execute_evGv {rest : Byte → M Unit} {b1 : Byte} (hp : ¬ (t.code16 = true ∨ hasBit t.flags VM = true))
    (hb : b1 ∈ [0x01, 0x03, 0x89, 0x8b]) : execute rest b1 t = fastEvGv b1 t := by
  unfold execute
  rw [get_bind_run, if_neg hp]
  simp only [List.mem_cons, List.not_mem_nil, or_false] at hb
  rcases hb with rfl | rfl | rfl | rfl <;> rfl

theorem Within.modrm {α : Type} (h : Within pl R v start pos g f t) (hs : start ≤ pos)
    (hpos : pos < 31) (hlen : pos - start < 17) (k : Byte → M α) :
    ∃ u, (do
        let _ ← Cpu.peek8a
        let modrm ← Cpu.fetch8
        k modrm : M α) t = k (signatureByte pos) u ∧ Within pl R v start (pos + 1) g f u := by
  obtain ⟨t', hrun, h'⟩ := h.peek8a hs hpos hlen
  obtain ⟨u, hrun', h''⟩ := h'.fetch8 hs hpos hlen
  refine ⟨u, ?_, h''⟩
  rw [bind_run_ok hrun, bind_run_ok hrun']

theorem sext_b32 (x : Word) : sext .b32 x = x := by
  unfold sext
  exact (BitVec.signExtend_eq_setWidth_of_le _ (by decide)).trans (by simp [Width.bits])

theorem aluOperands_run {op : AluOp} {a b : RmOperand} {x y : Word} (ha : a.load .b32 t = .ok x t)
    (hb : b.load .b32 t = .ok y t) :
    aluOperands op a b t = a.store32 (op.flags x y t.toLazyFlags).cc.dst
      { t with toLazyFlags := op.flags x y t.toLazyFlags } := by
  unfold aluOperands
  rw [bind_run_ok ha, bind_run_ok hb]
  rfl

theorem movOperands_run {a b : RmOperand} {y : Word} (hb : b.load .b32 t = .ok y t) :
    movOperands a b t = a.store32 y t := by
  unfold movOperands
  rw [bind_run_ok hb]

theorem load_reg (i : Fin 8) (t : CPUI386) :
    (RmOperand.reg i).load .b32 t = .ok (t.gpr i) t := rfl

theorem Within.addSum (h : Within pl R v start (start + 1) g f t) (rest : Byte → M Unit)
    (hp : Plain s f) (hpos : start + 3 ≤ 31) (hg : g 5 = s.gpr 5)
    (hm : signatureByte (start + 1) = 0x55) (hd : signatureByte (start + 2) = 8) :
    ∃ u, execute rest 0x01 t = .ok () u ∧
      Within pl (Also R s.sumAt .b32 true) (v + g 2) start (start + 3) g
        (LazyFlags.add .b32 v (g 2) f) u := by
  have hk : IsRwm 2 := Or.inr (Or.inl rfl)
  rw [execute_evGv (h.plain hp) (by decide)]
  obtain ⟨t₁, hrun₁, h₁⟩ := h.modrm (by omega) (by omega) (by omega) fun modrm => do
    let e ← rmOperand .b32 2 noPrefixes modrm
    aluOperands .add e (.reg (regField modrm))
  rw [hm] at hrun₁
  obtain ⟨res, t₂, hrun₂, hpl, h₂⟩ :=
    @Within.sumOperand _ _ _ _ _ _ _ _ _ _ h₁ (by omega) (by omega) (by omega) hg hd 2 hk 0x55
      (by decide) (by decide)
  have halu := @aluOperands_run t₂ .add (.addr res) (.reg 2) _ _ (h₂.sum_load hpl) (load_reg 2 t₂)
  have hgpr : t₂.gpr 2 = g 2 := by rw [h₂.gpr]
  rw [hgpr, h₂.flags] at halu
  obtain ⟨u, hrun₃, h₃⟩ := (h₂.withFlags (LazyFlags.add .b32 v (g 2) f)).sum_store hpl (v + g 2)
  have hdst : (LazyFlags.add .b32 v (g 2) f).cc.dst = v + g 2 := by
    change sext .b32 (sext .b32 v + sext .b32 (g 2)) = _
    rw [sext_b32, sext_b32, sext_b32]
  refine ⟨u, ?_, h₃⟩
  refine Eq.trans hrun₁ ((bind_run_ok hrun₂).trans (halu.trans ?_))
  change RmOperand.store32 (LazyFlags.add .b32 v (g 2) f).cc.dst (.addr res) _ = _
  rw [hdst]
  exact hrun₃

theorem Within.loadSum (h : Within pl R v start (start + 1) g f t) (rest : Byte → M Unit)
    (hp : Plain s f) (hpos : start + 3 ≤ 31) (hg : g 5 = s.gpr 5) {modrm : Byte} {i : Fin 8}
    (hm : signatureByte (start + 1) = modrm) (hd : signatureByte (start + 2) = 8)
    (hi : modField modrm = 1 ∧ rmField modrm = 5 ∧ regField modrm = i) :
    ∃ u, execute rest 0x8b t = .ok () u ∧
      Within pl R v start (start + 3) (Function.update g i v) f u := by
  obtain ⟨hmod, hrm, rfl⟩ := hi
  have hk : IsRwm 1 := Or.inl rfl
  rw [execute_evGv (h.plain hp) (by decide)]
  obtain ⟨t₁, hrun₁, h₁⟩ := h.modrm (by omega) (by omega) (by omega) fun modrm => do
    let e ← rmOperand .b32 1 noPrefixes modrm
    movOperands (.reg (regField modrm)) e
  rw [hm] at hrun₁
  obtain ⟨res, t₂, hrun₂, hpl, h₂⟩ :=
    @Within.sumOperand _ _ _ _ _ _ _ _ _ _ h₁ (by omega) (by omega) (by omega) hg hd 1 hk modrm
      hmod hrm
  have hmov := @movOperands_run t₂ (.reg (regField modrm)) (.addr res) _ (h₂.sum_load hpl)
  refine ⟨t₂.setGpr (regField modrm) v, ?_, ?_⟩
  · exact Eq.trans hrun₁ ((bind_run_ok hrun₂).trans hmov)
  · exact (h₂.mono fun _ _ hr => Or.inl hr).setGpr (regField modrm) v

theorem Within.storeSum (h : Within pl R v start (start + 1) g f t) (rest : Byte → M Unit)
    (hp : Plain s f) (hpos : start + 3 ≤ 31) (hg : g 5 = s.gpr 5)
    (hm : signatureByte (start + 1) = 0x55) (hd : signatureByte (start + 2) = 8) :
    ∃ u, execute rest 0x89 t = .ok () u ∧
      Within pl R (g 2) start (start + 3) g f u := by
  have hk : IsRwm 2 := Or.inr (Or.inl rfl)
  rw [execute_evGv (h.plain hp) (by decide)]
  obtain ⟨t₁, hrun₁, h₁⟩ := h.modrm (by omega) (by omega) (by omega) fun modrm => do
    let e ← rmOperand .b32 2 noPrefixes modrm
    movOperands e (.reg (regField modrm))
  rw [hm] at hrun₁
  obtain ⟨res, t₂, hrun₂, hpl, h₂⟩ :=
    @Within.sumOperand _ _ _ _ _ _ _ _ _ _ h₁ (by omega) (by omega) (by omega) hg hd 2 hk 0x55
      (by decide) (by decide)
  have hmov := @movOperands_run t₂ (.addr res) (.reg 2) _ (load_reg 2 t₂)
  obtain ⟨u, hrun₃, h₃⟩ := h₂.sum_store hpl (g 2)
  have hgpr : t₂.gpr 2 = g 2 := by rw [h₂.gpr]
  rw [hgpr] at hmov
  refine ⟨u, ?_, h₃.mono fun _ _ hr => Or.inl hr⟩
  exact Eq.trans hrun₁ ((bind_run_ok hrun₂).trans (hmov.trans hrun₃))

theorem rmOperand_reg {w : Width} {rwm : Nat} {p : Prefixes} {modrm : Byte} {i : Fin 8}
    (h : modField modrm = 3 ∧ rmField modrm = i) (t : CPUI386) :
    rmOperand w rwm p modrm t = .ok (.reg i) t := by
  unfold rmOperand
  rw [if_pos h.1, h.2]
  rfl

theorem Within.addReg (h : Within pl R v start (start + 1) g f t) (rest : Byte → M Unit)
    (hp : Plain s f) (hpos : start + 2 ≤ 31) (hm : signatureByte (start + 1) = 0xd6) :
    ∃ u, execute rest 0x03 t = .ok () u ∧
      Within pl R v start (start + 2) (Function.update g 2 (g 2 + g 6))
        (LazyFlags.add .b32 (g 2) (g 6) f) u := by
  rw [execute_evGv (h.plain hp) (by decide)]
  obtain ⟨t₁, hrun₁, h₁⟩ := h.modrm (by omega) (by omega) (by omega) fun modrm => do
    let e ← rmOperand .b32 1 noPrefixes modrm
    aluOperands .add (.reg (regField modrm)) e
  rw [hm] at hrun₁
  have hreg : regField 0xd6 = 2 := by decide
  have hrm : rmOperand .b32 1 noPrefixes 0xd6 t₁ = .ok (.reg 6) t₁ := rmOperand_reg (by decide) _
  rw [hreg, bind_run_ok hrm] at hrun₁
  have halu := @aluOperands_run t₁ .add (.reg 2) (.reg 6) _ _ (load_reg 2 t₁) (load_reg 6 t₁)
  have hgpr₂ : t₁.gpr 2 = g 2 := by rw [h₁.gpr]
  have hgpr₆ : t₁.gpr 6 = g 6 := by rw [h₁.gpr]
  have hdst : (LazyFlags.add .b32 (g 2) (g 6) f).cc.dst = g 2 + g 6 := by
    change sext .b32 (sext .b32 (g 2) + sext .b32 (g 6)) = _
    rw [sext_b32, sext_b32, sext_b32]
  rw [hgpr₂, hgpr₆, h₁.flags] at halu
  refine ⟨_, Eq.trans hrun₁ halu, ?_⟩
  change Within pl R v start (start + 2) _ _
    (CPUI386.setGpr _ 2 (LazyFlags.add .b32 (g 2) (g 6) f).cc.dst)
  rw [hdst]
  exact (h₁.withFlags (LazyFlags.add .b32 (g 2) (g 6) f)).setGpr 2 (g 2 + g 6)

theorem Within.andReg (h : Within pl R v start (start + 1) g f t) (rest : Byte → M Unit)
    (hp : Plain s f) (hpos : start + 6 ≤ 31) (hm : signatureByte (start + 1) = 0xe2) {x : Word}
    (hx : leWord (fun k => signatureByte (start + 2 + k)) .b32 = x) :
    ∃ u, execute rest 0x81 t = .ok () u ∧
      Within pl R v start (start + 6) (Function.update g 2 (g 2 &&& x))
        (LazyFlags.and .b32 (g 2) x f) u := by
  obtain ⟨t₁, hrun₁, h₁⟩ := h.peek8a (by omega) (by omega) (by omega)
  obtain ⟨t₂, hrun₂, h₂⟩ := h₁.fetch8 (by omega) (by omega) (by omega)
  obtain ⟨t₃, hrun₃, h₃⟩ := h₂.fetch32 (by omega) (by omega) (by omega)
  rw [hm] at hrun₁ hrun₂
  rw [hx] at hrun₃
  have halu := @aluOperands_run t₃ .and (.reg 2) (.imm x) _ _ (load_reg 2 t₃) rfl
  have hgpr : t₃.gpr 2 = g 2 := by rw [h₃.gpr]
  have hdst : (LazyFlags.and .b32 (g 2) x f).cc.dst = g 2 &&& x := by
    change sext .b32 (g 2 &&& x) = _
    rw [sext_b32]
  rw [hgpr, h₃.flags] at halu
  have hexec : execute rest 0x81 t = aluOperands .and (.reg 2) (.imm x) t₃ := by
    have hplain : execute rest 0x81 t = fastEvIv rest t := by
      unfold execute
      rw [get_bind_run, if_neg (h.plain hp)]
      rfl
    have hgroup : peekGroup t = .ok 4 t₁ := by
      unfold peekGroup
      rw [bind_run_ok hrun₁]
      rfl
    have hop : group1 4 = some .and := rfl
    have hmod : modField 0xe2 = 3 := by decide
    have hrm : rmField 0xe2 = 2 := by decide
    rw [hplain]
    unfold fastEvIv
    rw [bind_run_ok hgroup, hop]
    simp only []
    rw [bind_run_ok hrun₂, if_pos hmod, hrm, bind_run_ok hrun₃]
  refine ⟨_, hexec.trans halu, ?_⟩
  change Within pl R v start (start + 6) _ _
    (CPUI386.setGpr _ 2 (LazyFlags.and .b32 (g 2) x f).cc.dst)
  rw [hdst]
  exact (h₃.withFlags (LazyFlags.and .b32 (g 2) x f)).setGpr 2 (g 2 &&& x)

theorem shrHelper_sixteen (x : Word) (f : LazyFlags) :
    ∃ f', LazyFlags.shrHelper .b32 x 0x10 f = some (f', x >>> 16) ∧ f'.flags = f.flags := by
  refine ⟨_, congrArg (fun y => some (_, y)) (sext_b32 (x >>> 16)), ?_⟩
  rfl

theorem Within.shrReg (h : Within pl R v start (start + 1) g f t) (rest : Byte → M Unit)
    (hp : Plain s f) (hpos : start + 3 ≤ 31) (hm : signatureByte (start + 1) = 0xee)
    (hc : signatureByte (start + 2) = 0x10) :
    ∃ u, execute rest 0xc1 t = .ok () u ∧ ∃ f', f'.flags = f.flags ∧
      Within pl R v start (start + 3) (Function.update g 6 (g 6 >>> 16)) f' u := by
  obtain ⟨t₁, hrun₁, h₁⟩ := h.peek8a (by omega) (by omega) (by omega)
  obtain ⟨t₂, hrun₂, h₂⟩ := h₁.fetch8 (by omega) (by omega) (by omega)
  obtain ⟨t₃, hrun₃, h₃⟩ := h₂.fetch8 (by omega) (by omega) (by omega)
  rw [hm] at hrun₁ hrun₂
  rw [hc] at hrun₃
  have hplain : execute rest 0xc1 t = shiftEvIb rest t := by
    unfold execute
    rw [get_bind_run, if_neg (h.plain hp)]
    rfl
  have hgroup : peekGroup t = .ok 5 t₁ := by
    unfold peekGroup
    rw [bind_run_ok hrun₁]
    rfl
  have himm : fetchImm8 .b32 t₂ = .ok 0x10 t₃ := by
    unfold fetchImm8
    rw [bind_run_ok hrun₃]
    rfl
  have hmod : modField 0xee = 3 := by decide
  have hrm : rmField 0xee = 6 := by decide
  have hexec : execute rest 0xc1 t = shrOperand (.reg 6) 0x10 t₃ := by
    rw [hplain]
    unfold shiftEvIb
    rw [bind_run_ok hgroup, if_pos rfl, bind_run_ok hrun₂, if_pos hmod, hrm, bind_run_ok himm]
  obtain ⟨f', hshr, hflags⟩ := shrHelper_sixteen (g 6) f
  have hgpr : t₃.gpr 6 = g 6 := by rw [h₃.gpr]
  have hrun : shrOperand (.reg 6) 0x10 t₃ =
      .ok () (({ t₃ with toLazyFlags := f' } : CPUI386).setGpr 6 (g 6 >>> 16)) := by
    unfold shrOperand
    rw [bind_run_ok (load_reg 6 t₃), get_bind_run, hgpr, h₃.flags, hshr]
    rfl
  exact ⟨_, hexec.trans hrun, f', hflags, (h₃.withFlags f').setGpr 6 (g 6 >>> 16)⟩

theorem Within.incDec (h : Within pl R v start pos g f t)
    {op : Word → LazyFlags → Option LazyFlags} {i : Fin 8} {f' : LazyFlags}
    (hf : op (g i) f = some f') :
    ∃ u, incDecReg op i t = .ok () u ∧
      Within pl R v start pos (Function.update g i f'.cc.dst) f' u := by
  refine ⟨({ t with toLazyFlags := f' } : CPUI386).setGpr i f'.cc.dst, ?_,
    (h.withFlags f').setGpr i f'.cc.dst⟩
  have hgpr : lreg32 t i = g i := by rw [lreg32, h.gpr]
  unfold incDecReg Cpu.withFlags
  rw [get_bind_run, bind_assoc_run, get_bind_run, hgpr, h.flags, hf]
  rfl

theorem incDecHelper_some {name : Width → CcOp} {op : Word → Word → Word} {a : Word}
    {cf : Bool} (h : f.getCF = some cf) :
    LazyFlags.incDecHelper name .b32 op a f = some { f with
      flags := setBit f.flags cf CF
      cc := { f.cc with dst := op a 1, op := name .b32, mask := LazyFlags.incDecMask } } := by
  unfold LazyFlags.incDecHelper
  rw [h, sext_b32, sext_b32]
  rfl

theorem Within.inc (h : Within pl R v start (start + 1) g f t) (rest : Byte → M Unit)
    (hp : Plain s f) {cf : Bool} (hcf : f.getCF = some cf) {b1 : Byte} {i : Fin 8}
    (hb : b1 &&& 0xf8 = 0x40 ∧ rmField b1 = i) :
    ∃ u, execute rest b1 t = .ok () u ∧ ∃ f', f'.flags = setBit f.flags cf CF ∧
      Within pl R v start (start + 1) (Function.update g i (g i + 1)) f' u := by
  have hinc : LazyFlags.inc .b32 (g i) f = _ := incDecHelper_some hcf
  obtain ⟨u, hrun, hu⟩ := h.incDec hinc
  refine ⟨u, ?_, _, rfl, hu⟩
  unfold execute
  rw [get_bind_run, if_neg (h.plain hp), if_pos hb.1, hb.2]
  exact hrun

structure Decremented (f f' : LazyFlags) (cf : Bool) (x : Word) : Prop where
  flags : f'.flags = setBit f.flags cf CF
  op : f'.cc.op = .dec .b32
  dst : f'.cc.dst = x
  mask : f'.cc.mask = LazyFlags.incDecMask

theorem Within.dec (h : Within pl R v start (start + 1) g f t) (rest : Byte → M Unit)
    (hp : Plain s f) {cf : Bool} (hcf : f.getCF = some cf) {b1 : Byte} {i : Fin 8}
    (hb : b1 &&& 0xf8 = 0x48 ∧ rmField b1 = i) :
    ∃ u, execute rest b1 t = .ok () u ∧ ∃ f', Decremented f f' cf (g i - 1) ∧
      Within pl R v start (start + 1) (Function.update g i (g i - 1)) f' u := by
  have hdec : LazyFlags.dec .b32 (g i) f = _ := incDecHelper_some hcf
  obtain ⟨u, hrun, hu⟩ := h.incDec hdec
  refine ⟨u, ?_, _, ⟨rfl, rfl, rfl, rfl⟩, hu⟩
  unfold execute
  rw [get_bind_run, if_neg (h.plain hp), if_neg, if_pos hb.1, hb.2]
  · exact hrun
  · rw [hb.1]
    decide

theorem Within.jne (h : Within pl R v 29 30 g f t) (rest : Byte → M Unit) (hp : Plain s f) :
    ∃ u, execute rest 0x75 t = .ok () u ∧
      if f.getZF = true then Within pl R v 29 31 g f u else Reached pl R v 0 g f u := by
  obtain ⟨u, hrun, hu⟩ := h.fetch8 (by decide) (by decide) (by decide)
  have hcond : cond u.toLazyFlags 0x75 = some !f.getZF := by
    rw [hu.flags]
    rfl
  have hexec : execute rest 0x75 t =
      onlyIf ((!f.getZF) = true) (modify fun s => s.skip ((signatureByte 30).signExtend 32)) u := by
    unfold execute
    rw [get_bind_run, if_neg (h.plain hp)]
    change jcc8 0x75 t = _
    unfold jcc8
    rw [bind_run_ok hrun, get_bind_run, hcond]
  rw [hexec]
  unfold onlyIf
  cases hz : f.getZF with
  | true => exact ⟨u, rfl, hu⟩
  | false =>
    refine ⟨u.skip ((signatureByte 30).signExtend 32), rfl, hu.jump ?_⟩
    rw [hu.nextIp, BitVec.add_assoc]
    have hzero : BitVec.ofNat 32 (30 + 1) + (signatureByte 30).signExtend 32 = 0 := by decide
    rw [hzero]
    exact BitVec.add_zero _

theorem Within.movzx (h : Within pl R v 0 1 g f t) (rest : Byte → M Unit) (hp : Plain s f)
    {i : Nat} (hi : i < n) (hfirst : i = 0 → v = pl.initial)
    (hg : g 0 = s.gpr 0 + BitVec.ofNat 32 (2 * i)) :
    ∃ u, execute rest 0x0f t = .ok () u ∧
      Within pl (Also R (linear s.sourceAt (2 * i)) .b16 false) v 0 3
        (Function.update g 2 ((pl.sourceWord i).setWidth 32)) f u := by
  obtain ⟨t₁, hrun₁, h₁⟩ := h.peek8a (by decide) (by decide) (by decide)
  obtain ⟨t₂, hrun₂, h₂⟩ := h₁.fetch8 (by decide) (by decide) (by decide)
  obtain ⟨t₃, hrun₃, h₃⟩ := h₂.fetch8 (by decide) (by decide) (by decide)
  obtain ⟨res, t₄, hrun₄, hload, h₄⟩ := h₃.source hi hfirst
  have hbase : t₃.gpr 0 = s.gpr 0 + BitVec.ofNat 32 (2 * i) := by rw [h₃.gpr, hg]
  have haddr : modsib32 0 0 none t₃ = .ok (s.gpr 0 + BitVec.ofNat 32 (2 * i), .ds) t₃ := by
    have hzero : t₃.gpr 0 + (0 : Word) = t₃.gpr 0 := BitVec.add_zero _
    rw [← hbase]
    change Result.ok (t₃.gpr 0 + 0, SegReg.ds) t₃ = _
    rw [hzero]
  have hrm : rmOperand .b16 1 noPrefixes (signatureByte 2) t₃ = .ok (.addr res) t₄ := by
    unfold rmOperand memOperand
    rw [if_neg (by decide)]
    refine (bind_run_ok (show modsib false 0 0 none t₃ = _ from haddr)).trans ?_
    exact bind_run_ok hrun₄
  refine ⟨t₄.setGpr 2 ((pl.sourceWord i).setWidth 32), ?_, h₄.setGpr 2 _⟩
  have hplain : execute rest 0x0f t = twoByte rest t := by
    unfold execute
    rw [get_bind_run, if_neg (h.plain hp)]
    rfl
  have hreg : regField (signatureByte 2) = 2 := by decide
  have hmovzx : movzxGvEw t₂ = .ok () (t₄.setGpr 2 ((pl.sourceWord i).setWidth 32)) := by
    unfold movzxGvEw
    rw [bind_run_ok hrun₃, bind_run_ok hrm, hreg]
    exact bind_run_ok hload
  rw [hplain]
  unfold twoByte
  rw [bind_run_ok hrun₁, if_neg (by decide), bind_run_ok hrun₂, if_pos (by decide)]
  exact hmovzx

theorem Reached.go (h : Reached pl R v pos g f t) (rest : Byte → M Unit)
    (h16 : s.code16 = false) (hpos : pos < 31) {Q : CPUI386 → Prop}
    (hexec : ∀ t', Within pl R v pos (pos + 1) g f t' →
      ∃ u, execute rest (signatureByte pos) t' = .ok () u ∧ Q u) :
    ∃ u, Q u ∧ ∀ m z, RunsTo rest (s.ip + 0x1f) u m z → RunsTo rest (s.ip + 0x1f) t (m + 1) z := by
  obtain ⟨t', hw, hrun⟩ := h.insn rest h16 hpos
  obtain ⟨u, hok, hQ⟩ := hexec t' hw
  refine ⟨u, hQ, fun m z hz => RunsTo.next ?_ (hrun.trans hok) hz⟩
  rw [h.nextIp]
  intro heq
  have hnat := congrArg BitVec.toNat ((BitVec.add_right_inj s.ip).mp heq)
  have h31 : (0x1f : Word).toNat = 31 := rfl
  rw [BitVec.toNat_ofNat, h31] at hnat
  omega

def roundRegs (g : Fin 8 → Word) (acc : Word × Word) : Fin 8 → Word :=
  Function.update (Function.update (Function.update (Function.update g 0 (g 0 + 1 + 1)) 1 (g 1 - 1))
    2 acc.1) 6 acc.2

theorem setBit_setBit (x m : Word) (a b : Bool) : setBit (setBit x a m) b m = setBit x b m := by
  apply BitVec.eq_of_getLsbD_eq
  intro i hi
  rw [getLsbD_setBit, getLsbD_setBit, getLsbD_setBit]
  cases m.getLsbD i <;> simp

theorem hasBit_setBit_CF (x : Word) (a : Bool) : hasBit (setBit x a CF) VM = hasBit x VM :=
  hasBit_setBit_of_ne (i := 0) (j := 17) x a (by decide)

theorem getCF_add (x y : Word) (f : LazyFlags) :
    (LazyFlags.add .b32 x y f).getCF = some (decide (x + y < y)) := by
  have hm : hasBit LazyFlags.arithMask CF = true := by decide
  change (if hasBit LazyFlags.arithMask CF = true then
    some (decide (sext .b32 (sext .b32 x + sext .b32 y) < sext .b32 y)) else _) = _
  rw [if_pos hm, sext_b32, sext_b32, sext_b32]

theorem getCF_and (x y : Word) (f : LazyFlags) :
    (LazyFlags.and .b32 x y f).getCF = some false := by
  have hm : hasBit LazyFlags.logicMask CF = true := by decide
  change (if hasBit LazyFlags.logicMask CF = true then some false else _) = _
  rw [if_pos hm]

theorem halves_carry (x : Word) :
    decide ((x &&& (0xffff : Word)) + (x >>> 16) < x >>> 16) = false := by
  rw [decide_eq_false_iff_not, BitVec.not_lt, BitVec.le_def, BitVec.toNat_add]
  have hx := x.isLt
  have hlow : (x &&& (0xffff : Word)).toNat < 2 ^ 16 := by
    rw [BitVec.toNat_and]
    exact Nat.and_lt_two_pow _ (by decide)
  have hhigh : (x >>> 16).toNat < 2 ^ 16 := by
    rw [BitVec.toNat_ushiftRight, Nat.shiftRight_eq_div_pow]
    omega
  rw [Nat.mod_eq_of_lt (by omega)]
  omega

/-- The registers of a round, one instruction after the other. -/
theorem updates_eq (g : Fin 8 → Word) (w x y z : Word) :
    Function.update (Function.update (Function.update (Function.update (Function.update
      (Function.update (Function.update (Function.update (Function.update g 2 w) 0 (g 0 + 1)) 2 x)
      6 x) 2 z) 0 (g 0 + 1 + 1)) 6 y) 2 (z + y)) 1 (g 1 - 1) = roundRegs g (z + y, y) := by
  unfold roundRegs
  funext r
  by_cases h0 : r = 0
  · subst h0
    simp
  · by_cases h1 : r = 1
    · subst h1
      simp
    · by_cases h2 : r = 2
      · subst h2
        simp
      · by_cases h6 : r = 6
        · subst h6
          simp
        · simp [h0, h1, h2, h6]

theorem Within.congr {g' : Fin 8 → Word} (h : Within pl R v start pos g f t) (hg : g = g') :
    Within pl R v start pos g' f t := by
  rw [← hg]
  exact h

theorem Plain.of_flags {f' : LazyFlags} (hp : Plain s f) (hf : f'.flags = f.flags) :
    Plain s f' := by
  refine ⟨hp.code16, ?_⟩
  rw [hf]
  exact hp.vm

theorem Plain.of_carry {f' : LazyFlags} {c : Bool} (hp : Plain s f)
    (hf : f'.flags = setBit f.flags c CF) : Plain s f' := by
  refine ⟨hp.code16, ?_⟩
  rw [hf, hasBit_setBit_CF]
  exact hp.vm

theorem Plain.add (hp : Plain s f) (x y : Word) : Plain s (LazyFlags.add .b32 x y f) :=
  hp.of_flags rfl

theorem Plain.and (hp : Plain s f) (x y : Word) : Plain s (LazyFlags.and .b32 x y f) :=
  hp.of_flags rfl

/-- From behind the first byte of the loop to the jump at its end. -/
theorem Within.round (h : Within pl R v 0 1 g f t) (rest : Byte → M Unit) (hp : Plain s f) {i : Nat}
    (hi : i < n) (hfirst : i = 0 → v = pl.initial)
    (hg0 : g 0 = s.gpr 0 + BitVec.ofNat 32 (2 * i)) (hg5 : g 5 = s.gpr 5) :
    ∃ t₁, execute rest 0x0f t = .ok () t₁ ∧ ∃ u f', Decremented f f' false (g 1 - 1) ∧
      Reached pl (Also (Also R (linear s.sourceAt (2 * i)) .b16 false) s.sumAt .b32 true)
        (addWord v (pl.sourceWord i)).1 29 (roundRegs g (addWord v (pl.sourceWord i))) f' u ∧
      ∀ m z, RunsTo rest (s.ip + 0x1f) u m z → RunsTo rest (s.ip + 0x1f) t₁ (m + 10) z := by
  have h16 := hp.code16
  obtain ⟨t₁, hrun, h₁⟩ := h.movzx rest hp hi hfirst hg0
  obtain ⟨t₂, h₂, hgo₂⟩ := h₁.toReached.go rest h16 (by decide)
    fun _ h' => h'.addSum rest hp (by decide) hg5 rfl rfl
  have hp₂ := hp.add v ((pl.sourceWord i).setWidth 32)
  obtain ⟨t₃, ⟨f₃, hf₃, h₃⟩, hgo₃⟩ := h₂.toReached.go rest h16 (by decide)
    fun _ h' => h'.inc rest hp₂ (getCF_add _ _ _) (i := 0) (by decide)
  have hp₃ : Plain s f₃ := hp₂.of_carry hf₃
  obtain ⟨t₄, h₄, hgo₄⟩ := h₃.toReached.go rest h16 (by decide)
    fun _ h' => h'.loadSum rest hp₃ (by decide) hg5 (i := 2) rfl rfl (by decide)
  obtain ⟨t₅, h₅, hgo₅⟩ := h₄.toReached.go rest h16 (by decide)
    fun _ h' => h'.loadSum rest hp₃ (by decide) hg5 (i := 6) rfl rfl (by decide)
  obtain ⟨t₆, h₆, hgo₆⟩ := h₅.toReached.go rest h16 (by decide)
    fun _ h' => h'.andReg rest hp₃ (by decide) rfl (x := 0xffff) (by decide)
  have hp₆ := hp₃.and (v + (pl.sourceWord i).setWidth 32) 0xffff
  obtain ⟨t₇, ⟨f₇, hf₇, h₇⟩, hgo₇⟩ := h₆.toReached.go rest h16 (by decide)
    fun _ h' => h'.inc rest hp₆ (getCF_and _ _ _) (i := 0) (by decide)
  have hp₇ : Plain s f₇ := hp₆.of_carry hf₇
  obtain ⟨t₈, ⟨f₈, hf₈, h₈⟩, hgo₈⟩ := h₇.toReached.go rest h16 (by decide)
    fun _ h' => h'.shrReg rest hp₇ (by decide) rfl rfl
  have hp₈ : Plain s f₈ := hp₇.of_flags hf₈
  obtain ⟨t₉, h₉, hgo₉⟩ := h₈.toReached.go rest h16 (by decide)
    fun _ h' => h'.addReg rest hp₈ (by decide) rfl
  have hcarry := halves_carry (v + (pl.sourceWord i).setWidth 32)
  obtain ⟨t₁₀, ⟨f₁₀, hf₁₀, h₁₀⟩, hgo₁₀⟩ := h₉.toReached.go rest h16 (by decide)
    fun _ h' => h'.dec rest (hp₈.add _ _) ((getCF_add _ _ _).trans (congrArg some hcarry)) (i := 1)
      (by decide)
  have hp₁₀ : Plain s f₁₀ := (hp₈.add _ _).of_carry hf₁₀.flags
  obtain ⟨t₁₁, h₁₁, hgo₁₁⟩ := h₁₀.toReached.go rest h16 (by decide)
    fun _ h' => h'.storeSum rest hp₁₀ (by decide) hg5 rfl rfl
  refine ⟨t₁, hrun, t₁₁, f₁₀, ?_, ?_, ?_⟩
  · refine ⟨?_, hf₁₀.op, hf₁₀.dst, hf₁₀.mask⟩
    have hadd : ∀ x y f, (LazyFlags.add .b32 x y f).flags = f.flags := fun _ _ _ => rfl
    have hand : ∀ x y f, (LazyFlags.and .b32 x y f).flags = f.flags := fun _ _ _ => rfl
    rw [hf₁₀.flags, hadd, hf₈, hf₇, hand, hf₃, hadd, setBit_setBit, setBit_setBit]
  · have hregs := updates_eq g ((pl.sourceWord i).setWidth 32)
      (v + (pl.sourceWord i).setWidth 32) ((v + (pl.sourceWord i).setWidth 32) >>> 16)
      ((v + (pl.sourceWord i).setWidth 32) &&& 0xffff)
    exact (h₁₁.congr hregs).toReached
  · intro m z hz
    exact hgo₂ _ _ (hgo₃ _ _ (hgo₄ _ _ (hgo₅ _ _ (hgo₆ _ _ (hgo₇ _ _ (hgo₈ _ _ (hgo₉ _ _
      (hgo₁₀ _ _ (hgo₁₁ _ _ hz)))))))))

/-- The registers before source word `i`. -/
structure LoopRegs (s : CPUI386) (n i : Nat) (g : Fin 8 → Word) : Prop where
  source : g 0 = s.gpr 0 + BitVec.ofNat 32 (2 * i)
  count : g 1 = BitVec.ofNat 32 (n - i)
  other : ∀ r, r ≠ 0 → r ≠ 1 → r ≠ 2 → r ≠ 6 → g r = s.gpr r

theorem LoopRegs.round {i : Nat} (h : LoopRegs s n i g) (hi : i < n) (acc : Word × Word) :
    LoopRegs s n (i + 1) (roundRegs g acc) where
  source := by
    have hg : roundRegs g acc 0 = g 0 + 1 + 1 := by simp [roundRegs]
    have htwo : 2 * (i + 1) = 2 * i + 1 + 1 := by omega
    rw [hg, h.source, htwo, BitVec.ofNat_add, BitVec.ofNat_add, ← BitVec.add_assoc,
      ← BitVec.add_assoc]
    rfl
  count := by
    have hg : roundRegs g acc 1 = g 1 - 1 := by simp [roundRegs]
    have hone : n - i = (n - (i + 1)) + 1 := by omega
    rw [hg, h.count, hone, BitVec.ofNat_add]
    exact BitVec.add_sub_cancel _ _
  other r h0 h1 h2 h6 := by
    have hg : roundRegs g acc r = g r := by simp [roundRegs, h0, h1, h2, h6]
    rw [hg, h.other r h0 h1 h2 h6]

/-- The pages of the accumulator, to write, and of the first `i` source words. -/
def Looked (s : CPUI386) (i : Nat) (l : Word) (write : Bool) : Prop :=
  (write = true ∧ ∃ k, k < 4 ∧ l = linear s.sumAt k >>> 12) ∨
    (write = false ∧ ∃ k, k < 2 * i ∧ l = linear s.sourceAt k >>> 12)

/-- The pages of the first `i` source words. -/
def Sourced (s : CPUI386) (i : Nat) (l : Word) (write : Bool) : Prop :=
  write = false ∧ ∃ k, k < 2 * i ∧ l = linear s.sourceAt k >>> 12

theorem looked_round {i : Nat} {l : Word} {write : Bool} (h : Looked s (i + 1) l write) :
    Also (Also (Sourced s i) (linear s.sourceAt (2 * i)) .b16 false) s.sumAt .b32 true l write := by
  rcases h with ⟨rfl, k, hk, rfl⟩ | ⟨rfl, k, hk, rfl⟩
  · exact Or.inr ⟨rfl, k, hk, rfl⟩
  · refine Or.inl ?_
    by_cases hlt : k < 2 * i
    · exact Or.inl ⟨rfl, k, hlt, rfl⟩
    · refine Or.inr ⟨rfl, k - 2 * i, ?_, ?_⟩
      · change k - 2 * i < 2
        omega
      · have hsum : k = 2 * i + (k - 2 * i) := by omega
        unfold linear
        rw [BitVec.add_assoc, ← BitVec.ofNat_add, ← hsum]

theorem Decremented.getZF {f' : LazyFlags} {cf : Bool} {x : Word} (h : Decremented f f' cf x) :
    f'.getZF = (x == 0) := by
  unfold LazyFlags.getZF
  rw [h.mask, h.dst, if_pos (by decide)]

/-- The sum over `m` words from `i` on. -/
def sumFrom (w : Nat → BitVec 16) : Nat → Nat → Word × Word → Word × Word
  | 0, _, acc => acc
  | m + 1, i, acc => sumFrom w m (i + 1) (addWord acc.1 (w i))

structure Finished (pl : ChecksumPlace s n) (f : LazyFlags) (acc : Word × Word) (u : CPUI386) :
    Prop where
  reached : ∃ g, Reached pl (Looked s n) acc.1 31 g u.toLazyFlags u
  regs : LoopRegs s n n u.gpr
  sum : u.gpr 2 = acc.1
  high : u.gpr 6 = acc.2
  flags : Decremented f u.toLazyFlags false 0

theorem Reached.mono (h : Reached pl R v pos g f t) (hR : ∀ l write, R' l write → R l write) :
    Reached pl R' v pos g f t :=
  { h with data := fun l write hr => h.data l write (hR l write hr) }

/-- From behind the first byte of the loop to its exit or its next round. -/
theorem Within.turn (rest : Byte → M Unit) (hn : n < 2 ^ 32) {i : Nat} (hi : i < n)
    (hfirst : i = 0 → v = pl.initial) (h : Within pl (Sourced s i) v 0 1 g f t) (hp : Plain s f)
    (hg : LoopRegs s n i g) :
    ∃ t₁, execute rest 0x0f t = .ok () t₁ ∧ ∃ u f',
      Decremented f f' false (BitVec.ofNat 32 (n - (i + 1))) ∧
      Reached pl (Looked s (i + 1)) (addWord v (pl.sourceWord i)).1 (if i + 1 = n then 31 else 0)
        (roundRegs g (addWord v (pl.sourceWord i))) f' u ∧
      ∀ m z, RunsTo rest (s.ip + 0x1f) u m z → RunsTo rest (s.ip + 0x1f) t₁ (m + 11) z := by
  have hg5 : g 5 = s.gpr 5 := hg.other 5 (by decide) (by decide) (by decide) (by decide)
  obtain ⟨t₁, hrun, u, f', hdec, hreach, hgo⟩ := h.round rest hp hi hfirst hg.source hg5
  have hp' : Plain s f' := hp.of_carry hdec.flags
  have hcount : g 1 - 1 = BitVec.ofNat 32 (n - (i + 1)) := by
    have hr := (hg.round hi (0, 0)).count
    simpa [roundRegs] using hr
  rw [hcount] at hdec
  obtain ⟨z, hz, hgo'⟩ := (hreach.mono fun _ _ => looked_round).go rest hp.code16 (by decide)
    fun _ h' => h'.jne rest hp'
  refine ⟨t₁, hrun, z, f', hdec, ?_, fun m y hy => hgo (m + 1) y (hgo' m y hy)⟩
  have hzero : (BitVec.ofNat 32 (n - (i + 1)) == 0) = decide (i + 1 = n) := by
    rw [Bool.eq_iff_iff, beq_iff_eq, decide_eq_true_eq, ← BitVec.toNat_inj, BitVec.toNat_ofNat,
      Nat.mod_eq_of_lt (by omega)]
    change n - (i + 1) = 0 ↔ _
    omega
  rw [hdec.getZF, hzero] at hz
  by_cases hlast : i + 1 = n
  · rw [if_pos (decide_eq_true hlast)] at hz
    rw [if_pos hlast]
    exact hz.toReached
  · rw [if_neg (by rw [decide_eq_true_eq]; exact hlast)] at hz
    rw [if_neg hlast]
    exact hz

theorem looked_sourced {i : Nat} {l : Word} {write : Bool} (h : Sourced s i l write) :
    Looked s i l write := Or.inr h

/-- From behind the first byte of the loop to its exit, by induction on the words that remain. -/
theorem Within.loop (rest : Byte → M Unit) (hn : n < 2 ^ 32) (m : Nat) :
    ∀ {i : Nat} {v high : Word} {g : Fin 8 → Word} {f : LazyFlags} {t : CPUI386}, i + m + 1 = n →
      (i = 0 → v = pl.initial) → Within pl (Sourced s i) v 0 1 g f t → Plain s f →
      LoopRegs s n i g →
      ∃ t₁ u, execute rest 0x0f t = .ok () t₁ ∧ RunsTo rest (s.ip + 0x1f) t₁ (12 * m + 11) u ∧
        Finished pl f (sumFrom pl.sourceWord (m + 1) i (v, high)) u := by
  induction m with
  | zero =>
    intro i v high g f t hin hfirst h hp hg
    obtain ⟨t₁, hrun, u, f', hdec, hreach, hgo⟩ := h.turn rest hn (by omega) hfirst hp hg
    have hregs := hg.round (by omega) (addWord v (pl.sourceWord i))
    obtain rfl : n = i + 1 := by omega
    rw [if_pos rfl] at hreach
    refine ⟨t₁, u, hrun, hgo 0 u (.here hreach.nextIp), ?_⟩
    have hgpr := hreach.gpr
    have hflags := hreach.flags
    subst hflags
    rw [← hgpr] at hregs
    refine ⟨⟨_, hreach⟩, hregs, ?_, ?_, ?_⟩
    · rw [hgpr]
      simp [roundRegs, sumFrom]
    · rw [hgpr]
      simp [roundRegs, sumFrom]
    · rw [Nat.sub_self] at hdec
      exact hdec
  | succ m ih =>
    intro i v high g f t hin hfirst h hp hg
    obtain ⟨t₁, hrun, u, f', hdec, hreach, hgo⟩ := h.turn rest hn (by omega) hfirst hp hg
    have hregs := hg.round (by omega) (addWord v (pl.sourceWord i))
    have hp' : Plain s f' := hp.of_carry hdec.flags
    rw [if_neg (by omega)] at hreach
    have hstart := hreach.mono fun _ _ => looked_sourced
    have hstep : ∀ t', Within pl (Sourced s (i + 1)) (addWord v (pl.sourceWord i)).1 0 1
        (roundRegs g (addWord v (pl.sourceWord i))) f' t' →
        ∃ t₂, execute rest (signatureByte 0) t' = .ok () t₂ ∧
          ∃ z, RunsTo rest (s.ip + 0x1f) t₂ (12 * m + 11) z ∧ Finished pl f'
            (sumFrom pl.sourceWord (m + 1) (i + 1) (addWord v (pl.sourceWord i))) z := by
      intro t' h'
      obtain ⟨t₂, z, hrun', hz, hfin⟩ :=
        @ih (i + 1) _ (addWord v (pl.sourceWord i)).2 _ _ _ (by omega)
          (fun h0 => absurd h0 (Nat.succ_ne_zero i)) h' hp' hregs
      exact ⟨t₂, hrun', z, hz, hfin⟩
    obtain ⟨t₂, ⟨z, hz, hfin⟩, hgo'⟩ := hstart.go rest hp.code16 (by decide) hstep
    refine ⟨t₁, z, hrun, hgo _ z (hgo' _ z hz), ?_⟩
    have hfl := hfin.flags
    refine ⟨hfin.reached, hfin.regs, hfin.sum, hfin.high, ?_, hfl.op, hfl.dst, hfl.mask⟩
    rw [hfl.flags, hdec.flags, setBit_setBit]

end ChecksumPlace

end Winspire.Cpu
