import Winspire.Netblk.ReadCache

/-!
# Sessions

A session is `block_device_init_net` followed by any sequence of calls. Which requests may
fail is a parameter and can depend on the call and the state it starts in.
-/

namespace Winspire.Netblk

open Interaction

set_option autoImplicit false

/-- A call, what it returned and the requests it made, latest first. -/
structure Step where
  call : NetCall
  result : CallResult
  log : List (Request × Bool)

def NetCall.writes : NetCall → Nat → Option Sector
  | .write sectorNum buf n => overlay sectorNum (slice buf 0 n.toNat)
  | _ => nothing

def Step.accepts (st : Step) (x : Nat) : Option Sector :=
  if st.result.rc = 0 then st.call.writes x else none

/-! Histories are latest first. -/

/-- The data of the most recent acknowledged write of a sector. -/
def lastAccepted : List Step → Nat → Option Sector
  | [], _ => none
  | st :: hist, x => (st.accepts x).or (lastAccepted hist x)

/-- The acknowledged writes applied to an image in order. -/
def imageAfter (image : Nat → Sector) : List Step → Nat → Sector
  | [] => image
  | ⟨.write sectorNum buf n, ⟨0, _⟩, _⟩ :: hist =>
    blit (imageAfter image hist) sectorNum (slice buf 0 n.toNat)
  | _ :: hist => imageAfter image hist

/-- A WRITE request has carried `v` to sector `x` since the last acknowledged write of the sector
began. -/
def carriedSince : List Step → Nat → Sector → Prop
  | [], _, _ => False
  | st :: hist, x, v => carried st.log x v ∨ st.accepts x = none ∧ carriedSince hist x v

theorem imageAfter_cons (image : Nat → Sector) (st : Step) (hist : List Step) (x : Nat) :
    imageAfter image (st :: hist) x = (st.accepts x).getD (imageAfter image hist x) := by
  obtain ⟨call, ⟨rc, out⟩, log⟩ := st
  cases call with
  | write sectorNum buf n =>
    by_cases hrc : rc = 0
    · subst hrc
      rw [imageAfter, blit_eq_overlay]
      rfl
    · rw [imageAfter, Step.accepts, if_neg hrc]
      · rfl
      · rintro _ _ _ _ _ h
        simp only [Step.mk.injEq, CallResult.mk.injEq] at h
        exact hrc h.2.1.1
  | _ => simp [imageAfter, Step.accepts, NetCall.writes, nothing]

/-- Which requests of a call may fail, given the state it starts in. -/
abbrev Faults := BlockDeviceNet → NetCall → Request → Prop

/-- Everything starts with a device that `block_device_init_net` returned; that function's PING may
fail unnoticed. `guard` restricts the calls. -/
inductive Session (settings : NetSettings) (d : Disk) (faults : Faults)
    (guard : BlockDeviceNet → Disk → NetCall → Prop) :
    List Step → BlockDeviceNet → Disk → Prop where
  | fresh {bn : BlockDeviceNet} {l : Link} :
      Runs (link fun _ => True) (blockDeviceInitNet settings) ⟨d, []⟩ (some bn) l →
      Session settings d faults guard [] bn l.disk
  | step {hist : List Step} {bn bn' : BlockDeviceNet} {disk : Disk} {call : NetCall}
      {result : CallResult} {l : Link} :
      Session settings d faults guard hist bn disk → guard bn disk call →
      Runs (link (faults bn call)) (call.run bn) ⟨disk, []⟩ (result, bn') l →
      Session settings d faults guard (⟨call, result, l.log⟩ :: hist) bn' l.disk

def noFaults : Faults := fun _ _ _ => False

def anyFaults : Faults := fun _ _ _ => True

def anyCall : BlockDeviceNet → Disk → NetCall → Prop := fun _ _ _ => True

structure Inv (disk : Disk) (bn : BlockDeviceNet) : Prop where
  side : WriteSideAt disk bn
  cache : CacheSide disk.cfg bn

structure Fresh (d : Disk) (bn : BlockDeviceNet) : Prop extends Inv d bn where
  writeback : bn.writeback = []
  writeSectors : bn.writeSectors = 0
  notReady : bn.writebackReady = false
  windows : ∀ w ∈ bn.readCache, w.sectors = 0

theorem wp_allocAll {mayFail : Request → Prop} {Q : Bool → Link → Prop} (k : Nat) {l : Link}
    (h : ∀ ok, Q ok l) : wp (link mayFail) (allocAll k) Q l := by
  induction k with
  | zero => exact h true
  | succ k ih =>
    intro ok l' hl
    obtain rfl : l' = l := hl
    cases ok with
    | true => exact ih
    | false => exact h false

theorem wp_netblkPing {mayFail : Request → Prop} {Q : Int → Link → Prop} {l : Link}
    (bn : BlockDeviceNet) (info : PingInfo)
    (h : ∀ rc l', rc = 0 ∨ rc = -1 → l'.disk = l.disk → Extends mayFail l l' → Q rc l') :
    wp (link mayFail) (netblkPing bn info) Q l := by
  intro us l' hl
  obtain rfl : l' = l := hl
  apply wp_request (show l'.disk.admits (.ping _ _) from trivial)
  · exact h 0 _ (Or.inl rfl) rfl (Extends.ok l' _)
  · intro hmay img
    exact h (-1) _ (Or.inr rfl) rfl (Extends.failed l' img hmay)

theorem clampSectors_bounds {lo hi : Int} (x : Int) (hlo : 1 ≤ lo) (hhi : lo ≤ hi) :
    1 ≤ clampSectors lo hi x ∧ clampSectors lo hi x ≤ hi.toNat ∧
      (lo ≤ x → clampSectors lo hi x ≤ x.toNat) := by
  unfold clampSectors
  omega

/-- What `block_device_init_net` makes of the server's answer to HELLO. -/
def helloDevice (settings : NetSettings) (d : Disk) : BlockDeviceNet where
  readOnly := settings.readOnly
  readCache := List.replicate netblkReadCacheWindows {}
  writeBuffer := fun _ _ => 0
  writebackEnabled := settings.writeback.all (· ≠ 0)
  nbSectors := d.sectorCount
  maxSectors := d.cfg.maxSectors
  prefetchSectors := clampSectors 1 netblkReadCacheSectors
    (min ((settings.prefetch.filter (0 < ·)).getD 64) d.cfg.maxSectors)
  writable := !d.cfg.readOnly

theorem prefetch_setting_pos (settings : NetSettings) :
    1 ≤ (settings.prefetch.filter (0 < ·)).getD 64 := by
  cases hp : settings.prefetch.filter (0 < ·) with
  | none => decide
  | some x =>
    have hpos := of_decide_eq_true (Option.filter_eq_some_iff.mp hp).2
    exact hpos

theorem helloDevice_fresh (settings : NetSettings) (d : Disk) : Fresh d (helloDevice settings d) := by
  have hone := d.cfg.one_le_maxSectors
  have hreq := prefetch_setting_pos settings
  obtain ⟨hlo, hhi, hle⟩ := @clampSectors_bounds 1 netblkReadCacheSectors
    (min ((settings.prefetch.filter (0 < ·)).getD 64) d.cfg.maxSectors) (by decide) (by decide)
  have hcap := hle (by omega)
  refine ⟨⟨?_, ?_⟩, rfl, rfl, rfl, ?_⟩
  · exact ⟨rfl, d.sectorCount_lt, Nat.zero_le _, fun hne => absurd rfl hne, Nat.zero_le _,
      by simp [helloDevice], List.Pairwise.nil, fun _ => rfl, fun hr => absurd hr (by simp [helloDevice]),
      by simp [helloDevice], by simp [helloDevice]⟩
  · refine ⟨hone, Nat.le_refl _, hlo, ?_, hhi, by simp [helloDevice], ?_⟩
    · simp only [helloDevice]
      omega
    · exact Nat.zero_lt_succ _
  · intro w hw
    rw [(List.mem_replicate.mp hw).2]

/-- The client takes the advertised limit as a signed number; it is small enough. -/
theorem advertised_sectors (cfg : ServerConfig) :
    UInt32.ofNat cfg.maxSectors ≠ 0 ∧
      (UInt32.ofNat cfg.maxSectors).toBitVec.toInt = cfg.maxSectors := by
  have hone := cfg.one_le_maxSectors
  have hle := cfg.maxSectors_le
  simp only [netblkMaxSectors] at hle
  have hnat : (UInt32.ofNat cfg.maxSectors).toNat = cfg.maxSectors := by
    rw [UInt32.toNat_ofNat', Nat.mod_eq_of_lt (by omega)]
  constructor
  · intro hz
    rw [hz] at hnat
    simp at hnat
    omega
  · rw [BitVec.toInt_eq_toNat_of_lt]
    · rw [UInt32.toNat_toBitVec, hnat]
    · rw [UInt32.toNat_toBitVec, hnat]
      omega

theorem hello_flags (d : Disk) (profile : UInt32) :
    decide ((d.reply (.hello profile)).header.flags &&& 1 ≠ 0) = !d.cfg.readOnly := by
  cases h : d.cfg.readOnly <;> simp [Disk.reply, initHeader, h]

theorem wp_blockDeviceInitNet {mayFail : Request → Prop} (settings : NetSettings) (l : Link) :
    wp (link mayFail) (blockDeviceInitNet settings) (fun r l' => l'.disk = l.disk ∧
      Extends mayFail l l' ∧ (r = none ∨ r = some (helloDevice settings l.disk))) l := by
  unfold blockDeviceInitNet
  rw [wp_bind]
  apply wp_allocAll
  intro ok
  cases ok with
  | false => exact ⟨rfl, Extends.refl l, Or.inl rfl⟩
  | true =>
    simp only [not_true, if_false]
    rw [request_bind]
    apply wp_request (show l.disk.admits (.hello _) from trivial)
    · have hok : Extends mayFail l _ := Extends.ok l (.hello settings.profile)
      obtain ⟨hne, hint⟩ := advertised_sectors l.disk.cfg
      simp only
      by_cases hz : (l.disk.reply (.hello settings.profile)).header.count ≠ 512 ∨
          (l.disk.reply (.hello settings.profile)).header.lba = 0
      · rw [if_pos hz]
        exact ⟨rfl, hok, Or.inl rfl⟩
      · rw [if_neg hz, wp_bind]
        apply wp_netblkPing
        intro _ l' _ hdisk hext
        refine ⟨hdisk, hok.trans hext, Or.inr ?_⟩
        have hclamp : clampSectors 1 netblkMaxSectors l.disk.cfg.maxSectors =
            l.disk.cfg.maxSectors := by
          have hone := l.disk.cfg.one_le_maxSectors
          have hle := l.disk.cfg.maxSectors_le
          unfold clampSectors
          omega
        have hcount : (UInt64.ofNat l.disk.sectorCount).toNat = l.disk.sectorCount := by
          have hlt := l.disk.sectorCount_lt
          rw [UInt64.toNat_ofNat', Nat.mod_eq_of_lt (by omega)]
        rw [hello_flags]
        simp only [Disk.reply, initHeader, hne, if_false, hint, hclamp, hcount, helloDevice]
    · intro hmay img
      exact ⟨rfl, Extends.failed l img hmay, Or.inl rfl⟩

/-- The faults under which a call loses nothing: no run of the table fails, and a write that
finds the table in use sees no fault at all. -/
def Gentle (mayFail : Request → Prop) (bn : BlockDeviceNet) : NetCall → Prop
  | .write _ _ n => bn.writebackReady = true → n ≠ 0 → ∀ q, ¬mayFail q
  | _ => TableSafe mayFail

structure CallPost (mayFail : Request → Prop) (bn : BlockDeviceNet) (l : Link) (call : NetCall)
    (r : CallResult × BlockDeviceNet) (l' : Link) : Prop where
  inv : Inv l'.disk r.2
  ext : Extends mayFail l l'
  accepted : Gentle mayFail bn call → r.1.rc = 0 → Moves call.writes bn l r.2 l'
  kept : Gentle mayFail bn call → r.1.rc ≠ 0 →
    ∀ x v, bn.newest x = some v → r.2.newest x = some v ∨ carried l'.log x v
  coherent : Gentle mayFail bn call → r.1.rc = 0 → Coherent (bn.contents l.disk.image) bn →
    ReadsClean bn l.disk.image call → Coherent (r.2.contents l'.disk.image) r.2
  data : Gentle mayFail bn call → r.1.rc = 0 → Coherent (bn.contents l.disk.image) bn →
    ReadsClean bn l.disk.image call → ∀ sectorNum n, call = .read sectorNum n →
    r.1.buf = slice (bn.contents l.disk.image) sectorNum n.toNat

theorem contents_of_nothing {bn bn' : BlockDeviceNet} {l l' : Link}
    (h : Moves nothing bn l bn' l') : bn'.contents l'.disk.image = bn.contents l.disk.image :=
  funext h.contents

theorem CallPost.quiet {mayFail : Request → Prop} {bn bn' : BlockDeviceNet} {l l' : Link}
    {call : NetCall} {rc : Int} (hc : CacheSide l.disk.cfg bn)
    (hcall : call = .flush ∨ call = .drain ∨ ∃ info, call = .ping info)
    (hs : Steady mayFail bn l bn' l') (hm : TableSafe mayFail → Moves nothing bn l bn' l') :
    CallPost mayFail bn l call (⟨rc, []⟩, bn') l' := by
  have hgentle : Gentle mayFail bn call → TableSafe mayFail := by
    rcases hcall with rfl | rfl | ⟨info, rfl⟩ <;> exact id
  have hwrites : call.writes = nothing := by
    rcases hcall with rfl | rfl | ⟨info, rfl⟩ <;> rfl
  refine ⟨⟨hs.side, hs.ext.cfg ▸ hs.frame.cacheSide hc⟩, hs.ext, fun hg _ => hwrites ▸ hm (hgentle hg),
    fun hg _ x v hv => (hm (hgentle hg)).held x v hv, fun hg _ hcoh _ => ?_,
    fun _ _ _ _ sectorNum n heq => ?_⟩
  · rw [contents_of_nothing (hm (hgentle hg))]
    intro w hw
    rw [hs.frame.readCache] at hw
    exact hcoh w hw
  · rcases hcall with rfl | rfl | ⟨info, rfl⟩ <;> exact absurd heq (by simp)

theorem wp_netblkFlush {mayFail : Request → Prop} {bn : BlockDeviceNet} {l : Link}
    (h : WriteSideAt l.disk bn) :
    wp (link mayFail) (netblkFlush bn) (fun r l' => Steady mayFail bn l r.2 l' ∧
      (TableSafe mayFail → Moves nothing bn l r.2 l') ∧
      (r.1 = 0 → r.2.writeback = [] ∧ r.2.writeSectors = 0)) l := by
  unfold netblkFlush
  split
  · rename_i hor
    refine ⟨Steady.refl h, fun _ => Moves.refl bn l, fun _ => ?_⟩
    by_contra hheld
    obtain ⟨hro, hw⟩ := h.held_writable (by tauto)
    rcases hor with hor | hor
    · exact absurd (hor.symm.trans hro) (by simp)
    · exact hor hw
  · rw [wp_bind]
    refine wp_mono (wp_drain h) fun r l' hdrain => ?_
    obtain ⟨rc, bn'⟩ := r
    rcases hdrain.rc with hrc | hrc
    · simp only at hrc ⊢
      rw [hrc, if_neg (by decide), request_bind]
      apply wp_request (show l'.disk.admits .flush from trivial)
      · have hext : Extends mayFail l' _ := Extends.ok l' .flush
        exact ⟨⟨hdrain.side, hdrain.ext.trans hext, hdrain.frame⟩,
          fun hsafe => (hdrain.moves hsafe).then_nothing hext ⟨fun _ => rfl, fun _ _ hv => Or.inl hv⟩,
          fun _ => hdrain.empty hrc⟩
      · intro hmay img
        have hext := Extends.failed l' img hmay
        exact ⟨⟨hdrain.side, hdrain.ext.trans hext, hdrain.frame⟩,
          fun hsafe => (hdrain.moves hsafe).then_nothing hext ⟨fun _ => rfl, fun _ _ hv => Or.inl hv⟩,
          fun hz => absurd hz (by simp)⟩
    · simp only at hrc ⊢
      rw [hrc, if_pos (by decide)]
      exact ⟨hdrain.toSteady, hdrain.moves, fun hz => absurd hz (by simp)⟩

/-- Windows that survive an invalidation do not meet the range. -/
theorem netblkInvalidate_coherent {f : Nat → Sector} {bn : BlockDeviceNet} (sectorNum n : Nat)
    (buf : Nat → Sector) (h : Coherent f bn) :
    Coherent (blit f sectorNum (slice buf 0 n)) (netblkInvalidate bn sectorNum n) := by
  unfold netblkInvalidate
  split
  · rename_i hz
    rw [hz, slice_zero, blit_nil]
    exact h
  · intro w hw hne
    obtain ⟨u, hu, rfl⟩ := List.mem_map.mp hw
    split at hne
    · exact absurd rfl hne
    · rename_i hmeet
      rw [if_neg hmeet, h u hu hne]
      apply slice_congr
      intro x hlo hhi
      rw [blit_slice_apply, if_neg (by omega)]

theorem wp_call_write {mayFail : Request → Prop} {bn : BlockDeviceNet} {l : Link} {sectorNum : Nat}
    {buf : Nat → Sector} {n : Int} (h : Inv l.disk bn) :
    wp (link mayFail) (NetCall.run bn (.write sectorNum buf n))
      (CallPost mayFail bn l (.write sectorNum buf n)) l := by
  have hmax : bn.maxSectors ≤ netblkMaxSectors := h.cache.max_le.trans l.disk.cfg.maxSectors_le
  unfold NetCall.run
  rw [wp_bind]
  refine wp_mono (wp_netblkWriteAsync h.side hmax) fun r l' hor => ?_
  obtain ⟨rc, bn'⟩ := r
  rcases hor with ⟨heq, rfl⟩ | ⟨_, _, hpost⟩
  · simp only [Prod.mk.injEq] at heq
    obtain ⟨rfl, rfl⟩ := heq
    exact ⟨h, Extends.refl l', fun _ hz => absurd hz (by simp), fun _ _ x v hv => Or.inl hv,
      fun _ hz => absurd hz (by simp), fun _ hz => absurd hz (by simp)⟩
  · have hframe := hpost.steady.frame
    have hstart : (netblkInvalidate bn sectorNum n.toNat).contents l.disk.image =
        bn.contents l.disk.image := by
      rw [netblkInvalidate_eq]
      rfl
    have hnewest : (netblkInvalidate bn sectorNum n.toNat).newest = bn.newest := by
      rw [netblkInvalidate_eq]
      rfl
    have hcache : CacheSide l.disk.cfg (netblkInvalidate bn sectorNum n.toNat) := by
      have hlen : (netblkInvalidate bn sectorNum n.toNat).readCache.length = bn.readCache.length := by
        unfold netblkInvalidate
        split <;> simp
      rw [netblkInvalidate_eq]
      exact ⟨h.cache.one_le_max, h.cache.max_le, h.cache.one_le_prefetch, h.cache.prefetch_le,
        h.cache.prefetch_le_cache, hlen.trans h.cache.slots, h.cache.next_lt⟩
    have hmoves : Gentle mayFail bn (.write sectorNum buf n) → rc = 0 →
        Moves (overlay sectorNum (slice buf 0 n.toNat)) bn l bn' l' := by
      intro hg hrc
      have hm := hpost.stored hg hrc
      refine ⟨fun x => ?_, fun x v hv => hm.held x v (hnewest ▸ hv)⟩
      rw [hm.contents x, hstart]
    refine ⟨⟨hpost.steady.side, hpost.steady.ext.cfg ▸ hframe.cacheSide hcache⟩, hpost.steady.ext,
      hmoves, fun hg hne x v hv => ?_, fun hg hrc hcoh _ => ?_, fun _ _ _ _ _ _ heq => ?_⟩
    · refine hpost.kept hg (hpost.rc.resolve_left hne) x v ?_
      rw [hnewest]
      exact hv
    · have hcontents : bn'.contents l'.disk.image =
          blit (bn.contents l.disk.image) sectorNum (slice buf 0 n.toNat) := by
        funext x
        rw [(hmoves hg hrc).contents x, blit_eq_overlay]
      simp only
      rw [hcontents]
      intro w hw
      rw [hframe.readCache] at hw
      exact netblkInvalidate_coherent sectorNum n.toNat buf hcoh w hw
    · exact absurd heq (by simp)

theorem wp_call {mayFail : Request → Prop} {bn : BlockDeviceNet} {l : Link} (h : Inv l.disk bn)
    (call : NetCall) : wp (link mayFail) (call.run bn) (CallPost mayFail bn l call) l := by
  cases call with
  | write sectorNum buf n => exact wp_call_write h
  | read sectorNum n =>
    unfold NetCall.run
    rw [wp_bind]
    refine wp_mono (wp_netblkReadAsync h.side h.cache) fun r l' hpost => ?_
    obtain ⟨rc, bn', out⟩ := r
    refine ⟨⟨hpost.side, hpost.cache⟩, hpost.ext, fun hg _ => hpost.moves hg,
      fun hg _ x v hv => (hpost.moves hg).held x v hv, fun hg hrc hcoh hclean => ?_,
      fun hg hrc hcoh hclean sectorNum' n' heq => ?_⟩
    · simp only
      rw [contents_of_nothing (hpost.moves hg)]
      exact (hpost.data hg hrc hcoh hclean).1
    · simp only [NetCall.read.injEq] at heq
      obtain ⟨rfl, rfl⟩ := heq
      exact (hpost.data hg hrc hcoh hclean).2
  | flush =>
    unfold NetCall.run
    rw [wp_bind]
    exact wp_mono (wp_netblkFlush h.side) fun r l' ⟨hs, hm, _⟩ =>
      CallPost.quiet h.cache (Or.inl rfl) hs hm
  | drain =>
    unfold NetCall.run
    rw [wp_bind]
    exact wp_mono (wp_drain h.side) fun r l' hdrain =>
      CallPost.quiet h.cache (Or.inr (Or.inl rfl)) hdrain.toSteady hdrain.moves
  | ping info =>
    unfold NetCall.run
    rw [wp_bind]
    apply wp_netblkPing
    intro rc l' _ hdisk hext
    apply CallPost.quiet h.cache (Or.inr (Or.inr ⟨info, rfl⟩)) ⟨hext.writeSide h.side, hext,
      WriteFrame.refl bn⟩
    intro _
    refine ⟨fun x => ?_, fun x v hv => Or.inl hv⟩
    rw [hdisk]
    rfl

section Along
variable {settings : NetSettings} {d disk : Disk} {faults : Faults}
  {guard : BlockDeviceNet → Disk → NetCall → Prop} {hist : List Step} {bn : BlockDeviceNet}

theorem fresh_of_init {l : Link}
    (h : Runs (link fun _ => True) (blockDeviceInitNet settings) ⟨d, []⟩ (some bn) l) :
    l.disk = d ∧ Fresh d bn := by
  obtain ⟨hdisk, _, hnone | hsome⟩ := h.post (wp_blockDeviceInitNet settings ⟨d, []⟩)
  · exact absurd hnone (by simp)
  · rw [Option.some.inj hsome]
    exact ⟨hdisk, helloDevice_fresh settings d⟩

theorem Session.inv (hs : Session settings d faults guard hist bn disk) : Inv disk bn := by
  induction hs with
  | fresh hrun =>
    obtain ⟨hdisk, hfresh⟩ := fresh_of_init hrun
    rw [hdisk]
    exact hfresh.toInv
  | step _ _ hrun ih => exact (hrun.post (wp_call ih _)).inv

theorem Session.split {later : List Step} {st : Step}
    (hs : Session settings d faults guard (later ++ st :: hist) bn disk) :
    ∃ bn₁ disk₁ bn₂ l, Session settings d faults guard hist bn₁ disk₁ ∧ guard bn₁ disk₁ st.call ∧
      Runs (link (faults bn₁ st.call)) (st.call.run bn₁) ⟨disk₁, []⟩ (st.result, bn₂) l := by
  induction later generalizing bn disk with
  | nil =>
    cases hs with
    | step hs' hg hrun => exact ⟨_, _, _, _, hs', hg, hrun⟩
  | cons st' later ih =>
    cases hs with
    | step hs' _ _ => exact ih hs'

theorem lastAccepted_cons (st : Step) (hist : List Step) (x : Nat) :
    lastAccepted (st :: hist) x = (st.accepts x).or (lastAccepted hist x) := rfl

theorem accepts_of_rc {st : Step} (h : st.result.rc = 0) : st.accepts = st.call.writes := by
  funext x
  rw [Step.accepts, if_pos h]

/-- With gentle faults and every call acknowledged, the client and the server together hold the
image with the writes applied in order. -/
theorem Session.contents (hs : Session settings d faults guard hist bn disk)
    (hgentle : ∀ bn call, Gentle (faults bn call) bn call)
    (hrc : ∀ st ∈ hist, st.result.rc = 0) (x : Nat) :
    bn.contents disk.image x = imageAfter d.image hist x := by
  induction hs with
  | fresh hrun =>
    obtain ⟨hdisk, hfresh⟩ := fresh_of_init hrun
    rw [BlockDeviceNet.contents, newest_of_no_pending hfresh.writeSectors, hfresh.writeback, hdisk]
    rfl
  | step hs' _ hrun ih =>
    have hpost := hrun.post (wp_call hs'.inv _)
    have hzero := hrc _ List.mem_cons_self
    rw [(hpost.accepted (hgentle _ _) hzero).contents x, imageAfter_cons, accepts_of_rc hzero,
      ih fun st hst => hrc st (List.mem_cons_of_mem _ hst)]

/-- With clean reads as well, the read cache agrees with them. -/
theorem Session.coherent (hs : Session settings d faults guard hist bn disk)
    (hgentle : ∀ bn call, Gentle (faults bn call) bn call)
    (hclean : ∀ bn disk call, guard bn disk call → ReadsClean bn disk.image call)
    (hrc : ∀ st ∈ hist, st.result.rc = 0) : Coherent (bn.contents disk.image) bn := by
  induction hs with
  | fresh hrun =>
    obtain ⟨_, hfresh⟩ := fresh_of_init hrun
    intro w hw hne
    exact absurd (hfresh.windows w hw) hne
  | step hs' hg hrun ih =>
    have hpost := hrun.post (wp_call hs'.inv _)
    exact hpost.coherent (hgentle _ _) (hrc _ List.mem_cons_self)
      (ih fun st hst => hrc st (List.mem_cons_of_mem _ hst)) (hclean _ _ _ hg)

/-- With gentle faults, the last acknowledged data of a sector has been carried to the server or
is what the client holds for it. -/
theorem Session.held (hs : Session settings d faults guard hist bn disk)
    (hgentle : ∀ bn call, Gentle (faults bn call) bn call) {x : Nat} {v : Sector}
    (hacc : lastAccepted hist x = some v) : carriedSince hist x v ∨ bn.newest x = some v := by
  induction hs with
  | fresh hrun => exact absurd hacc (by simp [lastAccepted])
  | @step hist bn bn' disk call result l hs' _ hrun ih =>
    have hpost := hrun.post (wp_call hs'.inv _)
    by_cases hrc : result.rc = 0
    · have hmoves := hpost.accepted (hgentle _ _) hrc
      rw [lastAccepted_cons, accepts_of_rc hrc] at hacc
      cases hw : call.writes x with
      | some u =>
        rcases hmoves.held x v (by rw [hw] at hacc ⊢; exact hacc) with hn | hc
        · exact Or.inr hn
        · exact Or.inl (Or.inl hc)
      | none =>
        rw [hw, Option.none_or] at hacc
        have haccepts : Step.accepts ⟨call, result, l.log⟩ x = none := by
          rw [accepts_of_rc hrc]
          exact hw
        rcases ih hacc with hc | hn
        · exact Or.inl (Or.inr ⟨haccepts, hc⟩)
        · rcases hmoves.held x v (by rw [hw]; exact hn) with hn' | hc
          · exact Or.inr hn'
          · exact Or.inl (Or.inl hc)
    · have haccepts : Step.accepts ⟨call, result, l.log⟩ x = none := if_neg hrc
      rw [lastAccepted_cons, haccepts, Option.none_or] at hacc
      rcases ih hacc with hc | hn
      · exact Or.inl (Or.inr ⟨haccepts, hc⟩)
      · rcases hpost.kept (hgentle _ _) hrc x v hn with hn' | hc
        · exact Or.inr hn'
        · exact Or.inl (Or.inl hc)

end Along

end Winspire.Netblk
