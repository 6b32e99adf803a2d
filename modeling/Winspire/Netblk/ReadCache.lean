import Winspire.Netblk.Store

/-!
# The read cache

The windows `netblk_read_async` fetches lie inside the disk and hold the sector it misses, so
the loop ends and the server admits every READ. A cache that agrees with a disk `f` goes on
agreeing with it as long as the windows fetched do.
-/

namespace Winspire.Netblk

open Interaction

set_option autoImplicit false

structure CacheSide (cfg : ServerConfig) (bn : BlockDeviceNet) : Prop where
  one_le_max : 1 ≤ bn.maxSectors
  max_le : bn.maxSectors ≤ cfg.maxSectors
  one_le_prefetch : 1 ≤ bn.prefetchSectors
  prefetch_le : bn.prefetchSectors ≤ bn.maxSectors
  prefetch_le_cache : bn.prefetchSectors ≤ netblkReadCacheSectors
  slots : bn.readCache.length = netblkReadCacheWindows
  next_lt : bn.readCacheNext < netblkReadCacheWindows

/-- Every window in use holds what `f` says. -/
def Coherent (f : Nat → Sector) (bn : BlockDeviceNet) : Prop :=
  ∀ w ∈ bn.readCache, w.sectors ≠ 0 → w.data = slice f w.sector w.sectors

theorem holds_iff (w : ReadWindow) (x : Nat) :
    w.holds x = true ↔ w.sectors ≠ 0 ∧ w.sector ≤ x ∧ x < w.sector + w.sectors := by
  simp [ReadWindow.holds]

theorem netblkFindCache_some {bn : BlockDeviceNet} {x : Nat} {w : ReadWindow}
    (h : netblkFindCache bn x = some w) :
    w ∈ bn.readCache ∧ w.sectors ≠ 0 ∧ w.sector ≤ x ∧ x < w.sector + w.sectors := by
  unfold netblkFindCache at h
  have hholds := List.find?_some h
  exact ⟨List.mem_of_find?_eq_some h, (holds_iff w x).mp hholds⟩

theorem nextCached_bounds (cache : List ReadWindow) {cur next : Nat} (h : cur < next) :
    cur < cache.foldl (fun next w =>
        if w.sectors ≠ 0 ∧ cur < w.sector ∧ w.sector < next then w.sector else next) next ∧
      cache.foldl (fun next w =>
        if w.sectors ≠ 0 ∧ cur < w.sector ∧ w.sector < next then w.sector else next) next ≤ next := by
  induction cache generalizing next with
  | nil => exact ⟨h, Nat.le_refl _⟩
  | cons w cache ih =>
    simp only [List.foldl_cons]
    split
    · rename_i hw
      have hrec := ih hw.2.1
      exact ⟨hrec.1, by omega⟩
    · exact ih h

theorem netblkNextCached_bounds (bn : BlockDeviceNet) {cur requestEnd : Nat}
    (h : cur < requestEnd) :
    cur < netblkNextCached bn cur requestEnd ∧ netblkNextCached bn cur requestEnd ≤ requestEnd :=
  nextCached_bounds bn.readCache h

theorem div_mul_bounds {p : Nat} (h : 1 ≤ p) (x : Nat) : x / p * p ≤ x ∧ x < x / p * p + p := by
  have hmod := Nat.div_add_mod' x p
  have hlt := Nat.mod_lt x (show 0 < p by omega)
  omega

/-- A window holds the sector that was missing, lies inside the disk, and is no longer than
the server allows. -/
theorem netblkFetchWindow_bounds {cfg : ServerConfig} {bn : BlockDeviceNet} {cur requestEnd : Nat}
    (h : CacheSide cfg bn) (hcur : cur < requestEnd) (hend : requestEnd ≤ bn.nbSectors) :
    (netblkFetchWindow bn cur requestEnd).1 ≤ cur ∧
      cur < (netblkFetchWindow bn cur requestEnd).1 + (netblkFetchWindow bn cur requestEnd).2 ∧
      (netblkFetchWindow bn cur requestEnd).1 + (netblkFetchWindow bn cur requestEnd).2 ≤
        bn.nbSectors ∧
      (netblkFetchWindow bn cur requestEnd).2 ≤ bn.maxSectors := by
  obtain ⟨hlt, hle⟩ := netblkNextCached_bounds bn hcur
  have hmax := h.one_le_max
  have hpre := h.prefetch_le
  have hcache := h.prefetch_le_cache
  obtain ⟨hdown, hup⟩ := div_mul_bounds h.one_le_prefetch cur
  have hsize : netblkReadCacheSectors = 128 := rfl
  unfold netblkFetchWindow
  simp only
  generalize netblkNextCached bn cur requestEnd = next at hlt hle
  rw [if_neg (show ¬next - cur = 0 by omega)]
  generalize cur / bn.prefetchSectors * bn.prefetchSectors = start at hdown hup
  -- aligned and prefetched, or only what is missing
  by_cases hp : next = requestEnd ∧ next - cur < bn.prefetchSectors
  · have hone : 1 < bn.prefetchSectors := by omega
    simp only [if_pos hp, if_pos (And.intro hp hone)]
    rw [if_neg (by omega)]
    simp only
    omega
  · simp only [hp, false_and, if_false]
    rw [if_neg (by omega)]
    simp only
    omega

/-- The part of the state a read works on. -/
def BlockDeviceNet.withCache (bn : BlockDeviceNet) (cache : List ReadWindow)
    (next hits misses : Nat) : BlockDeviceNet :=
  { bn with readCache := cache, readCacheNext := next, cacheHits := hits, cacheMisses := misses }

/-- The windows the loop fetches when every READ succeeds: first sector and length of each. -/
def readFetches (image : Nat → Sector) (requestEnd : Nat) :
    Nat → BlockDeviceNet → Nat → List (Nat × Nat)
  | 0, _, _ => []
  | fuel + 1, bn, cur =>
    if cur < requestEnd then
      match netblkFindCache bn cur with
      | some w =>
        let copyEnd := min (w.sector + w.sectors) requestEnd
        readFetches image requestEnd fuel (bn.copied (copyEnd - cur)) copyEnd
      | none =>
        let (start, count) := netblkFetchWindow bn cur requestEnd
        (start, count) ::
          readFetches image requestEnd fuel (bn.fetched start count (slice image start count)) cur
    else []

structure ReadPost (mayFail : Request → Prop) (bn : BlockDeviceNet) (l : Link)
    (r : Int × BlockDeviceNet × List Sector) (l' : Link) : Prop where
  frame : ∃ cache next hits misses, r.2.1 = bn.withCache cache next hits misses
  cache : CacheSide l.disk.cfg r.2.1
  disk : l'.disk = l.disk
  ext : Extends mayFail l l'
  rc : r.1 = 0 ∨ r.1 = -1 ∧ ∃ q, mayFail q

theorem CacheSide.copied {cfg : ServerConfig} {bn : BlockDeviceNet} (h : CacheSide cfg bn)
    (copySectors : Nat) : CacheSide cfg (bn.copied copySectors) :=
  ⟨h.one_le_max, h.max_le, h.one_le_prefetch, h.prefetch_le, h.prefetch_le_cache, h.slots, h.next_lt⟩

theorem CacheSide.fetched {cfg : ServerConfig} {bn : BlockDeviceNet} (h : CacheSide cfg bn)
    (start count : Nat) (data : List Sector) : CacheSide cfg (bn.fetched start count data) where
  one_le_max := h.one_le_max
  max_le := h.max_le
  one_le_prefetch := h.one_le_prefetch
  prefetch_le := h.prefetch_le
  prefetch_le_cache := h.prefetch_le_cache
  slots := by simpa [BlockDeviceNet.fetched] using h.slots
  next_lt := Nat.mod_lt _ (by decide)

theorem CacheSide.dropSlot {cfg : ServerConfig} {bn : BlockDeviceNet} (h : CacheSide cfg bn) :
    CacheSide cfg bn.dropSlot where
  one_le_max := h.one_le_max
  max_le := h.max_le
  one_le_prefetch := h.one_le_prefetch
  prefetch_le := h.prefetch_le
  prefetch_le_cache := h.prefetch_le_cache
  slots := by simpa [BlockDeviceNet.dropSlot] using h.slots
  next_lt := h.next_lt

theorem netblkFindCache_fetched {cfg : ServerConfig} {bn : BlockDeviceNet} (h : CacheSide cfg bn)
    {start count cur : Nat} (data : List Sector) (hlo : start ≤ cur) (hhi : cur < start + count) :
    (netblkFindCache (bn.fetched start count data) cur).isSome = true := by
  have hslot : bn.readCacheNext < bn.readCache.length := by
    rw [h.slots]
    exact h.next_lt
  rw [netblkFindCache, List.find?_isSome]
  refine ⟨⟨start, count, data⟩, ?_, (holds_iff _ cur).mpr ⟨by simp only; omega, hlo, hhi⟩⟩
  exact List.mem_iff_getElem.mpr ⟨bn.readCacheNext, by simpa [BlockDeviceNet.fetched] using hslot,
    by simp [BlockDeviceNet.fetched]⟩

theorem Coherent.fetched {f : Nat → Sector} {bn : BlockDeviceNet} (h : Coherent f bn)
    {start count : Nat} {data : List Sector} (hdata : data = slice f start count) :
    Coherent f (bn.fetched start count data) := by
  intro w hw hne
  rcases List.mem_or_eq_of_mem_set hw with hw | rfl
  · exact h w hw hne
  · exact hdata

/-- A hit copies the sectors up to the end of the window or of the request. -/
theorem Coherent.copy {f : Nat → Sector} {bn : BlockDeviceNet} (h : Coherent f bn) {w : ReadWindow}
    {cur requestEnd : Nat} (hfind : netblkFindCache bn cur = some w) :
    (w.data.drop (cur - w.sector)).take (min (w.sector + w.sectors) requestEnd - cur) =
      slice f cur (min (w.sector + w.sectors) requestEnd - cur) := by
  obtain ⟨hmem, hne, hlo, hhi⟩ := netblkFindCache_some hfind
  rw [h w hmem hne, slice_drop_take f w.sector (by omega), show w.sector + (cur - w.sector) = cur by omega]

theorem wp_netblkReadLoop {mayFail : Request → Prop} {requestEnd : Nat} (fuel : Nat)
    {bn : BlockDeviceNet} {l : Link} {cur : Nat} (buf : List Sector)
    (h : CacheSide l.disk.cfg bn) (hnb : bn.nbSectors = l.disk.sectorCount)
    (hend : requestEnd ≤ bn.nbSectors) (hcur : cur ≤ requestEnd)
    (hfuel : 2 * (requestEnd - cur) ≤ fuel + (if (netblkFindCache bn cur).isSome then 1 else 0)) :
    wp (link mayFail) (netblkReadLoop requestEnd fuel bn cur buf) (fun r l' =>
      ReadPost mayFail bn l r l' ∧
      ∀ f, Coherent f bn →
        (∀ p ∈ readFetches l.disk.image requestEnd fuel bn cur,
          slice l.disk.image p.1 p.2 = slice f p.1 p.2) →
        r.1 = 0 → Coherent f r.2.1 ∧ r.2.2 = buf ++ slice f cur (requestEnd - cur)) l := by
  induction fuel generalizing bn l cur buf with
  | zero =>
    unfold netblkReadLoop
    have hdone : ¬cur < requestEnd := by
      split at hfuel <;> omega
    rw [if_neg hdone]
    refine ⟨⟨⟨_, _, _, _, rfl⟩, h, rfl, Extends.refl l, Or.inl rfl⟩, fun f hf _ _ => ⟨hf, ?_⟩⟩
    rw [show requestEnd - cur = 0 by omega, slice_zero, List.append_nil]
  | succ fuel ih =>
    unfold netblkReadLoop readFetches
    by_cases hlt : cur < requestEnd
    · rw [if_pos hlt]
      cases hfind : netblkFindCache bn cur with
      | some w =>
        obtain ⟨hmem, hne, hlo, hhi⟩ := netblkFindCache_some hfind
        simp only [hlt, if_true]
        rw [hfind, Option.isSome_some, if_pos rfl] at hfuel
        have hrec := @ih (bn.copied (min (w.sector + w.sectors) requestEnd - cur)) l
          (min (w.sector + w.sectors) requestEnd)
          (buf ++ (w.data.drop (cur - w.sector)).take (min (w.sector + w.sectors) requestEnd - cur))
          (h.copied _) hnb hend (by omega) (by omega)
        refine wp_mono hrec fun r l' ⟨hpost, hcoh⟩ => ⟨?_, fun f hf hclean hrc => ?_⟩
        · obtain ⟨cache, next, hits, misses, heq⟩ := hpost.frame
          exact ⟨⟨cache, next, hits, misses, heq⟩, hpost.cache, hpost.disk, hpost.ext, hpost.rc⟩
        · obtain ⟨hf', hout⟩ := hcoh f hf hclean hrc
          refine ⟨hf', ?_⟩
          rw [hout, hf.copy hfind, List.append_assoc]
          congr 1
          have hsum := slice_add f cur (min (w.sector + w.sectors) requestEnd - cur)
            (requestEnd - min (w.sector + w.sectors) requestEnd)
          rw [show cur + (min (w.sector + w.sectors) requestEnd - cur) =
            min (w.sector + w.sectors) requestEnd by omega] at hsum
          rw [← hsum]
          congr 1
          omega
      | none =>
        obtain ⟨hlo, hhi, hin, hmax⟩ := netblkFetchWindow_bounds h hlt hend
        rw [hfind, Option.isSome_none, if_neg (by simp)] at hfuel
        simp only [hlt, if_true]
        generalize netblkFetchWindow bn cur requestEnd = window at hlo hhi hin hmax ⊢
        obtain ⟨start, count⟩ := window
        simp only at hlo hhi hin hmax ⊢
        rw [if_neg (by omega)]
        have hle := h.max_le
        have hadmits : l.disk.admits (.read start count) := ⟨by omega, by omega, by omega⟩
        apply wp_request hadmits
        · have hrec := @ih (bn.fetched start count (slice l.disk.image start count))
            ⟨l.disk, (.read start count, true) :: l.log⟩ cur buf (h.fetched _ _ _) hnb hend hcur
            (by rw [netblkFindCache_fetched h _ hlo hhi, if_pos rfl]; omega)
          refine wp_mono hrec fun r l' ⟨hpost, hcoh⟩ => ⟨?_, fun f hf hclean hrc => ?_⟩
          · obtain ⟨cache, next, hits, misses, heq⟩ := hpost.frame
            exact ⟨⟨cache, next, hits, misses, heq⟩, hpost.cache, hpost.disk,
              (Extends.ok l (.read start count)).trans hpost.ext, hpost.rc⟩
          · have hwindow := hclean (start, count) List.mem_cons_self
            exact hcoh f (hf.fetched hwindow)
              (fun p hp => hclean p (List.mem_cons_of_mem _ hp)) hrc
        · intro hmay img
          exact ⟨⟨⟨_, _, _, _, rfl⟩, h.dropSlot, rfl, Extends.failed l img hmay,
            Or.inr ⟨rfl, _, hmay⟩⟩, fun _ _ _ hrc => absurd hrc (by simp)⟩
    · rw [if_neg hlt]
      refine ⟨⟨⟨_, _, _, _, rfl⟩, h, rfl, Extends.refl l, Or.inl rfl⟩, fun f hf _ _ => ⟨hf, ?_⟩⟩
      rw [show requestEnd - cur = 0 by omega, slice_zero, List.append_nil]

theorem netblkWriteOverlaps_false {ro : Bool} {sectorCount start count x : Nat} {bn : BlockDeviceNet}
    (h : WriteSide ro sectorCount bn) (hno : netblkWriteOverlaps bn start count = false)
    (hlo : start ≤ x) (hhi : x < start + count) : bn.newest x = none := by
  unfold netblkWriteOverlaps at hno
  rw [if_neg (by omega), Bool.or_eq_false_iff] at hno
  obtain ⟨hpend, htbl⟩ := hno
  rw [BlockDeviceNet.newest, Option.or_eq_none_iff]
  constructor
  · cases hready : bn.writebackReady with
    | false =>
      rw [h.notReady hready]
      rfl
    | true =>
      rw [hready, h.ready_enabled hready, Bool.and_self, Bool.true_and, List.any_eq_false] at htbl
      apply dirtyData_eq_none_iff.mpr
      intro e he
      cases hhit : e.hits x with
      | false => rfl
      | true =>
        obtain ⟨hdirty, rfl⟩ := (hits_iff e x).mp hhit
        exact absurd (by simp [hdirty, hlo, hhi]) (htbl e he)
  · rw [pendingAt_eq, if_neg]
    intro hin
    simp at hpend
    omega

/-- The windows a read fetches hold no sector whose newest data is still in the client. A read
that itself overlaps such data drains first. -/
def ReadsClean (bn : BlockDeviceNet) (image : Nat → Sector) : NetCall → Prop
  | .read sectorNum n => netblkWriteOverlaps bn sectorNum n.toNat = true ∨
      ∀ p ∈ readFetches image (sectorNum + n.toNat) (2 * n.toNat) bn sectorNum,
        netblkWriteOverlaps bn p.1 p.2 = false
  | _ => True

/-- The range test of `netblk_read_async`. -/
def BlockDeviceNet.inRange (bn : BlockDeviceNet) (sectorNum : Nat) (n : Int) : Prop :=
  ¬(n < 0 ∨ n > bn.maxSectors ∨ sectorNum > bn.nbSectors ∨ n > bn.nbSectors - sectorNum)

/-- In range, a read comes back with an error only if a request failed: its loop ends. -/
structure ReadCallPost (mayFail : Request → Prop) (sectorNum : Nat) (n : Int) (bn : BlockDeviceNet)
    (l : Link) (r : Int × BlockDeviceNet × List Sector) (l' : Link) : Prop where
  side : WriteSideAt l'.disk r.2.1
  cache : CacheSide l'.disk.cfg r.2.1
  ext : Extends mayFail l l'
  rc : r.1 = 0 ∨ r.1 = -1 ∧ (¬bn.inRange sectorNum n ∨ ∃ q, mayFail q)
  moves : TableSafe mayFail → Moves nothing bn l r.2.1 l'
  data : TableSafe mayFail → r.1 = 0 → Coherent (bn.contents l.disk.image) bn →
    ReadsClean bn l.disk.image (.read sectorNum n) →
    Coherent (bn.contents l.disk.image) r.2.1 ∧
      r.2.2 = slice (bn.contents l.disk.image) sectorNum n.toNat

theorem WriteFrame.cacheSide {cfg : ServerConfig} {bn bn' : BlockDeviceNet} (hf : WriteFrame bn bn')
    (h : CacheSide cfg bn) : CacheSide cfg bn' where
  one_le_max := hf.maxSectors ▸ h.one_le_max
  max_le := hf.maxSectors ▸ h.max_le
  one_le_prefetch := hf.prefetchSectors ▸ h.one_le_prefetch
  prefetch_le := hf.prefetchSectors ▸ hf.maxSectors ▸ h.prefetch_le
  prefetch_le_cache := hf.prefetchSectors ▸ h.prefetch_le_cache
  slots := hf.readCache ▸ h.slots
  next_lt := hf.readCacheNext ▸ h.next_lt

theorem WriteSide.withCache {ro : Bool} {count : Nat} {bn : BlockDeviceNet}
    (h : WriteSide ro count bn) (cache : List ReadWindow) (next hits misses : Nat) :
    WriteSide ro count (bn.withCache cache next hits misses) :=
  ⟨h.nbSectors_eq, h.sectorCount_lt, h.pending_le, h.pending_in, h.table_le, h.table_in, h.unique,
    h.notReady, h.ready_enabled, h.writable, h.held_writable⟩

theorem wp_read_after {mayFail : Request → Prop} {sectorNum n : Nat} {bn bn' : BlockDeviceNet}
    {l l' : Link} (hs : Steady mayFail bn l bn' l') (hc : CacheSide l.disk.cfg bn)
    (hm : TableSafe mayFail → Moves nothing bn l bn' l') (hin : sectorNum + n ≤ bn.nbSectors)
    (hclean : TableSafe mayFail → ReadsClean bn l.disk.image (.read sectorNum n) →
      ∀ p ∈ readFetches l'.disk.image (sectorNum + n) (2 * n) bn' sectorNum,
        slice l'.disk.image p.1 p.2 = slice (bn.contents l.disk.image) p.1 p.2) :
    wp (link mayFail) (netblkReadLoop (sectorNum + n) (2 * n) bn' sectorNum [])
      (fun r l'' => ReadCallPost mayFail sectorNum n bn l r l'') l' := by
  have hcache : CacheSide l'.disk.cfg bn' := hs.ext.cfg ▸ hs.frame.cacheSide hc
  have hnb : bn'.nbSectors = l'.disk.sectorCount := hs.side.nbSectors_eq
  have hend : sectorNum + n ≤ bn'.nbSectors := hs.frame.nbSectors ▸ hin
  refine wp_mono (wp_netblkReadLoop (2 * n) [] hcache hnb hend (by omega) (by omega))
    fun r l'' ⟨hpost, hcoh⟩ => ?_
  have hside := hpost.ext.writeSide hs.side
  have hcfg : l''.disk.cfg = l'.disk.cfg := by rw [hpost.disk]
  have hmoves : Moves nothing bn' l' r.2.1 l'' := by
    obtain ⟨cache, next, hits, misses, heq⟩ := hpost.frame
    rw [heq]
    refine ⟨fun x => ?_, fun x v hv => Or.inl hv⟩
    rw [hpost.disk]
    rfl
  refine ⟨?_, hcfg ▸ hpost.cache, hs.ext.trans hpost.ext, hpost.rc.imp_right (And.imp_right Or.inr),
    fun hsafe => (hm hsafe).then_nothing hpost.ext hmoves, fun hsafe hrc hbn hreads => ?_⟩
  · obtain ⟨cache, next, hits, misses, heq⟩ := hpost.frame
    rw [heq]
    exact hside.withCache cache next hits misses
  · have hbn' : Coherent (bn.contents l.disk.image) bn' := by
      intro w hw
      rw [hs.frame.readCache] at hw
      exact hbn w hw
    obtain ⟨hcoh', hout⟩ := hcoh _ hbn' (hclean hsafe hreads) hrc
    refine ⟨hcoh', ?_⟩
    rw [hout, Nat.add_sub_cancel_left, List.nil_append, Int.toNat_natCast]

theorem wp_netblkReadAsync {mayFail : Request → Prop} {sectorNum : Nat} {n : Int}
    {bn : BlockDeviceNet} {l : Link} (h : WriteSideAt l.disk bn) (hc : CacheSide l.disk.cfg bn) :
    wp (link mayFail) (netblkReadAsync bn sectorNum n)
      (fun r l' => ReadCallPost mayFail sectorNum n bn l r l') l := by
  unfold netblkReadAsync
  split
  · rename_i hout
    exact ⟨h, hc, Extends.refl l, Or.inr ⟨rfl, Or.inl fun hin => hin hout⟩,
      fun _ => Moves.refl bn l, fun _ hrc => absurd hrc (by simp)⟩
  · rename_i hguard
    simp only [not_or, not_lt, gt_iff_lt] at hguard
    obtain ⟨hpos, hn, hsector, hfits⟩ := hguard
    lift n to Nat using hpos with m
    have hin : sectorNum + m ≤ bn.nbSectors := by omega
    simp only [Int.toNat_natCast]
    cases hover : netblkWriteOverlaps bn sectorNum m with
    | true =>
      rw [if_pos rfl, wp_bind]
      refine wp_mono (wp_drain h) fun r l' hdrain => ?_
      obtain ⟨rc, bn'⟩ := r
      rcases hdrain.rc with hrc | hrc
      · simp only at hrc ⊢
        rw [hrc, if_neg (by decide)]
        refine wp_read_after hdrain.toSteady hc hdrain.moves hin fun hsafe _ p _ => ?_
        obtain ⟨htbl, hzero⟩ := hdrain.empty hrc
        apply slice_congr
        intro x _ _
        have hx := (hdrain.moves hsafe).contents x
        rw [BlockDeviceNet.contents, newest_of_no_pending hzero, htbl] at hx
        exact hx
      · simp only at hrc ⊢
        rw [hrc, if_pos (by decide)]
        exact ⟨hdrain.side, hdrain.ext.cfg ▸ hdrain.frame.cacheSide hc, hdrain.ext,
          Or.inr ⟨rfl, Or.inr (hdrain.some_mayFail hrc)⟩, hdrain.moves,
          fun _ hz => absurd hz (by simp)⟩
    | false =>
      rw [if_neg (by simp)]
      refine wp_read_after (Steady.refl h) hc (fun _ => Moves.refl bn l) hin fun _ hreads p hp => ?_
      have hno : netblkWriteOverlaps bn p.1 p.2 = false := by
        rcases hreads with hov | hall
        · rw [Int.toNat_natCast, hover] at hov
          exact absurd hov (by simp)
        · rw [Int.toNat_natCast] at hall
          exact hall p hp
      apply slice_congr
      intro x hlo hhi
      rw [BlockDeviceNet.contents, netblkWriteOverlaps_false h hno hlo hhi]
      rfl

end Winspire.Netblk
