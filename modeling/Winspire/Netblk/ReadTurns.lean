import Winspire.Netblk.Session

/-!
# The turns of a read

The loop of `netblk_read_async` one turn at a time, over any content of the cache and any answer
to its READs. The 64-bit sums of the source stay below `2^64` for the windows it fetches, which
lie inside the disk.
-/

namespace Winspire.Netblk

open Interaction

set_option autoImplicit false

/-- What `block_device_init_net` sets and no call changes. -/
structure Configured (bn : BlockDeviceNet) : Prop where
  one_le_max : 1 ≤ bn.maxSectors
  max_le : bn.maxSectors ≤ netblkMaxSectors
  one_le_prefetch : 1 ≤ bn.prefetchSectors
  prefetch_le : bn.prefetchSectors ≤ min bn.maxSectors netblkReadCacheSectors
  slots : bn.readCache.length = netblkReadCacheWindows
  next_lt : bn.readCacheNext < netblkReadCacheWindows
  nb_lt : bn.nbSectors < 2 ^ 64

section Init

variable {σ : Type} {E : Env netSig σ}

theorem wp_allocAll_any {Q : Bool → σ → Prop} (k : Nat) {s : σ} (h : ∀ ok s', Q ok s') :
    wp E (allocAll k) Q s := by
  induction k generalizing s with
  | zero => exact h true s
  | succ k ih =>
    intro ok s' _
    cases ok with
    | true => exact ih
    | false => exact h false s'

theorem wp_netblkPing_any {Q : Int → σ → Prop} {s : σ} (bn : BlockDeviceNet) (info : PingInfo)
    (h : ∀ rc s', Q rc s') : wp E (netblkPing bn info) Q s := by
  intro us s' _ answer s'' _
  cases answer with
  | some resp => exact h 0 s''
  | none => exact h (-1) s''

theorem hello_prefetch (settings : NetSettings) {maxSectors : Nat} (h : 1 ≤ maxSectors) :
    1 ≤ clampSectors 1 netblkReadCacheSectors
        (min ((settings.prefetch.filter (0 < ·)).getD 64) maxSectors) ∧
      clampSectors 1 netblkReadCacheSectors
        (min ((settings.prefetch.filter (0 < ·)).getD 64) maxSectors) ≤
          min maxSectors netblkReadCacheSectors := by
  have hreq := prefetch_setting_pos settings
  have hsize : netblkReadCacheSectors = 128 := rfl
  unfold clampSectors
  omega

theorem blockDeviceInitNet_configured (settings : NetSettings) (s : σ) :
    wp E (blockDeviceInitNet settings) (fun r _ => ∀ bn, r = some bn → Configured bn) s := by
  unfold blockDeviceInitNet
  rw [wp_bind]
  apply wp_allocAll_any
  intro ok s'
  cases ok with
  | false =>
    intro bn hbn
    cases hbn
  | true =>
    simp only [not_true, if_false]
    rw [request_bind]
    intro answer s'' _
    cases answer with
    | none =>
      intro bn hbn
      cases hbn
    | some hello =>
      simp only
      split
      · intro bn hbn
        cases hbn
      · rw [wp_bind]
        apply wp_netblkPing_any
        intro rc s3 bn hbn
        obtain rfl := Option.some.inj hbn
        have hmax := @clampSectors_bounds 1 netblkMaxSectors
          (if hello.header.bytes = 0 then netblkMaxSectors
            else hello.header.bytes.toBitVec.toInt) (by decide) (by decide)
        have hpre := hello_prefetch settings hmax.1
        exact ⟨hmax.1, hmax.2.1, hpre.1, hpre.2, List.length_replicate, Nat.zero_lt_succ _,
          hello.header.lba.toNat_lt⟩

end Init

structure ReadState where
  bn : BlockDeviceNet
  cur : Nat
  buf : List Sector

/-- The window before the branch that gives up the alignment and the size of the cache. -/
def clampedWindow (bn : BlockDeviceNet) (cur requestEnd : Nat) : Nat × Nat :=
  let nextCached := netblkNextCached bn cur requestEnd
  let missing := nextCached - cur
  let wanted := if missing = 0 then 1 else missing
  let prefetch := nextCached = requestEnd ∧ wanted < bn.prefetchSectors
  let fetchStart := if prefetch ∧ 1 < bn.prefetchSectors
    then cur / bn.prefetchSectors * bn.prefetchSectors else cur
  let fetchSectors := if prefetch then bn.prefetchSectors else wanted
  let fetchSectors := min (min fetchSectors bn.maxSectors) netblkReadCacheSectors
  (fetchStart, min fetchSectors (bn.nbSectors - fetchStart))

/-- A hit, or a miss whose READ was answered with any sectors. -/
inductive ReadTurn (requestEnd : Nat) : ReadState → ReadState → Prop where
  | hit {bn : BlockDeviceNet} {cur : Nat} (buf : List Sector) {w : ReadWindow} :
      cur < requestEnd → netblkFindCache bn cur = some w →
      ReadTurn requestEnd ⟨bn, cur, buf⟩
        ⟨bn.copied (min (w.sector + w.sectors) requestEnd - cur),
          min (w.sector + w.sectors) requestEnd,
          buf ++ (w.data.drop (cur - w.sector)).take
            (min (w.sector + w.sectors) requestEnd - cur)⟩
  | fetched {bn : BlockDeviceNet} {cur : Nat} (buf data : List Sector) :
      cur < requestEnd → netblkFindCache bn cur = none →
      (netblkFetchWindow bn cur requestEnd).2 ≠ 0 →
      ReadTurn requestEnd ⟨bn, cur, buf⟩
        ⟨bn.fetched (netblkFetchWindow bn cur requestEnd).1
          (netblkFetchWindow bn cur requestEnd).2 data, cur, buf⟩

/-- `k` turns. -/
inductive ReadTurns (requestEnd : Nat) : Nat → ReadState → ReadState → Prop where
  | none (s : ReadState) : ReadTurns requestEnd 0 s s
  | more {k : Nat} {s t u : ReadState} : ReadTurn requestEnd s t → ReadTurns requestEnd k t u →
      ReadTurns requestEnd (k + 1) s u

section Turns

variable {bn : BlockDeviceNet} {cur requestEnd : Nat}

theorem netblkFetchWindow_eq (bn : BlockDeviceNet) (cur requestEnd : Nat) :
    netblkFetchWindow bn cur requestEnd =
      if (clampedWindow bn cur requestEnd).1 + (clampedWindow bn cur requestEnd).2 ≤ cur
      then (cur, if netblkNextCached bn cur requestEnd - cur = 0 then 1
        else netblkNextCached bn cur requestEnd - cur)
      else clampedWindow bn cur requestEnd := rfl

/-- What a miss reads: a run of sectors of the disk around the one that is missing. -/
structure GoodWindow (bn : BlockDeviceNet) (cur : Nat) (window : Nat × Nat) : Prop where
  start_le : window.1 ≤ cur
  lt_end : cur < window.1 + window.2
  one_le : 1 ≤ window.2
  count_le : window.2 ≤ min bn.maxSectors netblkReadCacheSectors
  inside : window.1 + window.2 ≤ bn.nbSectors

theorem clampedWindow_good (h : Configured bn) (hcur : cur < requestEnd)
    (hend : requestEnd ≤ bn.nbSectors) : GoodWindow bn cur (clampedWindow bn cur requestEnd) := by
  have hnext := netblkNextCached_bounds bn hcur
  have hmax := h.one_le_max
  have hpre := h.prefetch_le
  have hdiv := div_mul_bounds h.one_le_prefetch cur
  have hsize : netblkReadCacheSectors = 128 := rfl
  unfold clampedWindow
  simp only
  generalize netblkNextCached bn cur requestEnd = next at hnext
  rw [if_neg (show ¬next - cur = 0 by omega)]
  generalize cur / bn.prefetchSectors * bn.prefetchSectors = start at hdiv
  by_cases hp : next = requestEnd ∧ next - cur < bn.prefetchSectors
  · have hone : 1 < bn.prefetchSectors := by omega
    simp only [if_pos hp, if_pos (And.intro hp hone)]
    constructor <;> simp only <;> omega
  · simp only [hp, false_and, if_false]
    constructor <;> simp only <;> omega

theorem netblkFetchWindow_good (h : Configured bn) (hcur : cur < requestEnd)
    (hend : requestEnd ≤ bn.nbSectors) :
    netblkFetchWindow bn cur requestEnd = clampedWindow bn cur requestEnd ∧
      GoodWindow bn cur (netblkFetchWindow bn cur requestEnd) := by
  have hgood := clampedWindow_good h hcur hend
  have heq : netblkFetchWindow bn cur requestEnd = clampedWindow bn cur requestEnd := by
    rw [netblkFetchWindow_eq]
    exact if_neg (Nat.not_le.mpr hgood.lt_end)
  rw [heq]
  exact ⟨rfl, hgood⟩

theorem Configured.copied (h : Configured bn) (n : Nat) : Configured (bn.copied n) :=
  ⟨h.one_le_max, h.max_le, h.one_le_prefetch, h.prefetch_le, h.slots, h.next_lt, h.nb_lt⟩

theorem Configured.fetched (h : Configured bn) (start count : Nat) (data : List Sector) :
    Configured (bn.fetched start count data) where
  one_le_max := h.one_le_max
  max_le := h.max_le
  one_le_prefetch := h.one_le_prefetch
  prefetch_le := h.prefetch_le
  slots := by simpa [BlockDeviceNet.fetched] using h.slots
  next_lt := Nat.mod_lt _ (by decide)
  nb_lt := h.nb_lt

theorem Configured.cacheSide (h : Configured bn) : CacheSide {} bn where
  one_le_max := h.one_le_max
  max_le := h.max_le
  one_le_prefetch := h.one_le_prefetch
  prefetch_le := Nat.le_trans h.prefetch_le (Nat.min_le_left _ _)
  prefetch_le_cache := Nat.le_trans h.prefetch_le (Nat.min_le_right _ _)
  slots := h.slots
  next_lt := h.next_lt

/-- The loop at sector `cur` of a request that ends inside the disk. -/
structure Reading (requestEnd : Nat) (s : ReadState) : Prop where
  configured : Configured s.bn
  end_le : requestEnd ≤ s.bn.nbSectors
  cur_le : s.cur ≤ requestEnd

/-- Turns that are left at most: two for each sector, one less when the next is in the cache. -/
def turnsLeft (requestEnd : Nat) (s : ReadState) : Nat :=
  2 * (requestEnd - s.cur) - (if (netblkFindCache s.bn s.cur).isSome then 1 else 0)

theorem ReadTurn.reading {s t : ReadState} (h : ReadTurn requestEnd s t)
    (hs : Reading requestEnd s) :
    Reading requestEnd t ∧ turnsLeft requestEnd t < turnsLeft requestEnd s := by
  cases h with
  | @hit bn cur buf w hlt hfind =>
    obtain ⟨-, -, hlo, hhi⟩ := netblkFindCache_some hfind
    refine ⟨⟨hs.configured.copied _, hs.end_le, Nat.min_le_right _ _⟩, ?_⟩
    unfold turnsLeft
    simp only [hfind, Option.isSome_some, if_true]
    split <;> omega
  | @fetched bn cur buf data hlt hfind hne =>
    have hgood := (netblkFetchWindow_good hs.configured hlt hs.end_le).2
    have hhit := netblkFindCache_fetched hs.configured.cacheSide data hgood.start_le hgood.lt_end
    refine ⟨⟨hs.configured.fetched _ _ _, hs.end_le, hs.cur_le⟩, ?_⟩
    unfold turnsLeft
    simp only [hfind, hhit, Option.isSome_none, if_true, Bool.false_eq_true, if_false]
    omega

theorem ReadTurns.reading {k : Nat} {s t : ReadState} (h : ReadTurns requestEnd k s t)
    (hs : Reading requestEnd s) :
    Reading requestEnd t ∧ k + turnsLeft requestEnd t ≤ turnsLeft requestEnd s := by
  induction h with
  | none s => exact ⟨hs, by omega⟩
  | more hturn _ ih =>
    have hstep := hturn.reading hs
    have hrest := ih hstep.1
    exact ⟨hrest.1, by omega⟩

theorem netblkReadLoop_done (h : ¬cur < requestEnd) (fuel : Nat) (buf : List Sector) :
    netblkReadLoop requestEnd fuel bn cur buf = .ret (0, bn, buf) := by
  unfold netblkReadLoop
  exact if_neg h

theorem netblkReadLoop_hit {w : ReadWindow} (h : cur < requestEnd)
    (hfind : netblkFindCache bn cur = some w) (fuel : Nat) (buf : List Sector) :
    netblkReadLoop requestEnd (fuel + 1) bn cur buf =
      netblkReadLoop requestEnd fuel (bn.copied (min (w.sector + w.sectors) requestEnd - cur))
        (min (w.sector + w.sectors) requestEnd)
        (buf ++ (w.data.drop (cur - w.sector)).take
          (min (w.sector + w.sectors) requestEnd - cur)) := by
  rw [netblkReadLoop, if_pos h]
  simp only [hfind]

theorem netblkReadLoop_miss (h : cur < requestEnd) (hfind : netblkFindCache bn cur = none)
    (hne : (netblkFetchWindow bn cur requestEnd).2 ≠ 0) (fuel : Nat) (buf : List Sector) :
    netblkReadLoop requestEnd (fuel + 1) bn cur buf =
      .ask (.request (.read (netblkFetchWindow bn cur requestEnd).1
          (netblkFetchWindow bn cur requestEnd).2)) fun
        | none => .ret (-1, bn.dropSlot, buf)
        | some resp => netblkReadLoop requestEnd fuel
            (bn.fetched (netblkFetchWindow bn cur requestEnd).1
              (netblkFetchWindow bn cur requestEnd).2 resp.data) cur buf := by
  rw [netblkReadLoop, if_pos h]
  simp only [hfind]
  rw [if_neg hne]
  congr 1
  funext answer
  cases answer <;> rfl

/-- Fuel beyond the turns that are left changes nothing: the loop ends by itself. -/
theorem netblkReadLoop_fuel {buf : List Sector} {m n : Nat}
    (hs : Reading requestEnd ⟨bn, cur, buf⟩)
    (hm : turnsLeft requestEnd ⟨bn, cur, buf⟩ ≤ m) (hn : turnsLeft requestEnd ⟨bn, cur, buf⟩ ≤ n) :
    netblkReadLoop requestEnd m bn cur buf = netblkReadLoop requestEnd n bn cur buf := by
  induction m generalizing n bn cur buf with
  | zero =>
    have hdone : ¬cur < requestEnd := by
      unfold turnsLeft at hm
      simp only at hm
      split at hm <;> omega
    rw [netblkReadLoop_done hdone, netblkReadLoop_done hdone]
  | succ m ih =>
    by_cases hlt : cur < requestEnd
    · obtain ⟨n, rfl⟩ : ∃ k, n = k + 1 := by
        refine ⟨n - 1, ?_⟩
        unfold turnsLeft at hn
        simp only at hn
        split at hn <;> omega
      cases hfind : netblkFindCache bn cur with
      | some w =>
        have hturn := (ReadTurn.hit buf hlt hfind).reading hs
        rw [netblkReadLoop_hit hlt hfind, netblkReadLoop_hit hlt hfind]
        exact ih hturn.1 (by omega) (by omega)
      | none =>
        have hgood := (netblkFetchWindow_good hs.configured hlt hs.end_le).2
        have hne : (netblkFetchWindow bn cur requestEnd).2 ≠ 0 :=
          Nat.pos_iff_ne_zero.mp hgood.one_le
        rw [netblkReadLoop_miss hlt hfind hne, netblkReadLoop_miss hlt hfind hne]
        congr 1
        funext answer
        cases answer with
        | none => rfl
        | some resp =>
          have hturn := (ReadTurn.fetched buf resp.data hlt hfind hne).reading hs
          exact ih hturn.1 (by omega) (by omega)
    · rw [netblkReadLoop_done hlt, netblkReadLoop_done hlt]

end Turns

/-- A miss, its window, and the hit that follows when its READ succeeds. -/
structure MissServed (requestEnd : Nat) (s : ReadState) : Prop where
  window : GoodWindow s.bn s.cur (netblkFetchWindow s.bn s.cur requestEnd)
  clamped : netblkFetchWindow s.bn s.cur requestEnd = clampedWindow s.bn s.cur requestEnd
  hits : ∀ data, ∃ w, netblkFindCache (s.bn.fetched (netblkFetchWindow s.bn s.cur requestEnd).1
      (netblkFetchWindow s.bn s.cur requestEnd).2 data) s.cur = some w ∧
    s.cur < min (w.sector + w.sectors) requestEnd

theorem Reading.missServed {requestEnd : Nat} {s : ReadState} (hs : Reading requestEnd s)
    (hlt : s.cur < requestEnd) : MissServed requestEnd s := by
  have hwindow := netblkFetchWindow_good hs.configured hlt hs.end_le
  refine ⟨hwindow.2, hwindow.1, ?_⟩
  intro data
  have hsome := netblkFindCache_fetched hs.configured.cacheSide data hwindow.2.start_le
    hwindow.2.lt_end
  obtain ⟨w, hw⟩ := Option.isSome_iff_exists.mp hsome
  obtain ⟨-, -, -, hhi⟩ := netblkFindCache_some hw
  exact ⟨w, hw, by omega⟩

/-- A loop at the state `s` that runs to its end in at most `k` turns. Each of its requests is the
READ of a served miss. -/
inductive Serves (requestEnd : Nat) :
    Nat → ReadState → NetProg (Int × BlockDeviceNet × List Sector) → Prop where
  | done {k : Nat} {s : ReadState} : ¬s.cur < requestEnd →
      Serves requestEnd k s (.ret (0, s.bn, s.buf))
  | hit {k : Nat} {s t : ReadState} {p : NetProg (Int × BlockDeviceNet × List Sector)} :
      (netblkFindCache s.bn s.cur).isSome → ReadTurn requestEnd s t → s.cur < t.cur →
      Serves requestEnd k t p → Serves requestEnd (k + 1) s p
  | miss {k : Nat} {s : ReadState}
      {p : Option Response → NetProg (Int × BlockDeviceNet × List Sector)} :
      s.cur < requestEnd → netblkFindCache s.bn s.cur = none → MissServed requestEnd s →
      p none = .ret (-1, s.bn.dropSlot, s.buf) →
      (∀ resp, Serves requestEnd k
        ⟨s.bn.fetched (netblkFetchWindow s.bn s.cur requestEnd).1
          (netblkFetchWindow s.bn s.cur requestEnd).2 resp.data, s.cur, s.buf⟩ (p (some resp))) →
      Serves requestEnd (k + 1) s
        (.ask (.request (.read (netblkFetchWindow s.bn s.cur requestEnd).1
          (netblkFetchWindow s.bn s.cur requestEnd).2)) p)

theorem netblkReadLoop_serves {requestEnd : Nat} {bn : BlockDeviceNet} {cur : Nat}
    {buf : List Sector} {fuel : Nat} (hs : Reading requestEnd ⟨bn, cur, buf⟩)
    (hfuel : turnsLeft requestEnd ⟨bn, cur, buf⟩ ≤ fuel) :
    Serves requestEnd fuel ⟨bn, cur, buf⟩ (netblkReadLoop requestEnd fuel bn cur buf) := by
  induction fuel generalizing bn cur buf with
  | zero =>
    have hdone : ¬cur < requestEnd := by
      unfold turnsLeft at hfuel
      simp only at hfuel
      split at hfuel <;> omega
    rw [netblkReadLoop_done hdone]
    exact .done hdone
  | succ fuel ih =>
    by_cases hlt : cur < requestEnd
    · cases hfind : netblkFindCache bn cur with
      | some w =>
        have hturn := ReadTurn.hit buf hlt hfind
        have hnext := hturn.reading hs
        obtain ⟨-, -, -, hhi⟩ := netblkFindCache_some hfind
        have hadvances : cur < min (w.sector + w.sectors) requestEnd := by omega
        rw [netblkReadLoop_hit hlt hfind]
        exact .hit (by simp [hfind]) hturn hadvances (ih hnext.1 (by omega))
      | none =>
        have hserved := hs.missServed hlt
        have hne : (netblkFetchWindow bn cur requestEnd).2 ≠ 0 :=
          Nat.pos_iff_ne_zero.mp hserved.window.one_le
        rw [netblkReadLoop_miss hlt hfind hne]
        refine .miss (s := ⟨bn, cur, buf⟩) hlt hfind hserved rfl ?_
        intro resp
        have hnext := (ReadTurn.fetched buf resp.data hlt hfind hne).reading hs
        have hrest := ih hnext.1 (by omega)
        exact hrest
    · rw [netblkReadLoop_done hlt]
      exact .done hlt

theorem netblkGatherRun_frame (sector left run : Nat) (bn : BlockDeviceNet) :
    WriteFrame bn (netblkGatherRun sector left run bn).1 := by
  induction left generalizing run bn with
  | zero => exact WriteFrame.refl bn
  | succ left ih =>
    unfold netblkGatherRun
    split
    · exact WriteFrame.refl bn
    · split
      · exact WriteFrame.refl bn
      · have hrest := ih (run + 1)
        apply WriteFrame.trans _ (hrest _)
        exact ⟨rfl, rfl, rfl, rfl, rfl, rfl, rfl, rfl, id⟩

section Drain

variable {σ : Type} {E : Env netSig σ}

theorem wp_flushWrites_frame (bn : BlockDeviceNet) (s : σ) :
    wp E (netblkFlushWrites bn) (fun r _ => WriteFrame bn r.2) s := by
  unfold netblkFlushWrites
  split
  · exact WriteFrame.refl bn
  · rw [request_bind]
    intro answer s' _
    cases answer with
    | some resp => exact ⟨rfl, rfl, rfl, rfl, rfl, rfl, rfl, rfl, id⟩
    | none => exact WriteFrame.refl bn

theorem wp_drainLoop_frame (fuel : Nat) (bn : BlockDeviceNet) (s : σ) :
    wp E (netblkDrainLoop fuel bn) (fun r _ => WriteFrame bn r.2) s := by
  induction fuel generalizing bn s with
  | zero =>
    unfold netblkDrainLoop
    split
    · exact ⟨rfl, rfl, rfl, rfl, rfl, rfl, rfl, rfl, id⟩
    · exact WriteFrame.refl bn
  | succ fuel ih =>
    unfold netblkDrainLoop
    split
    · exact ⟨rfl, rfl, rfl, rfl, rfl, rfl, rfl, rfl, id⟩
    · rename_i sector _
      have hgather := netblkGatherRun_frame sector netblkWriteBufferSectors 0 bn
      simp only
      split
      · exact hgather
      · intro answer s' _
        cases answer with
        | none => exact hgather
        | some resp =>
          refine wp_mono (ih _ s') fun r _ hframe => ?_
          apply hgather.trans
          apply WriteFrame.trans _ hframe
          exact ⟨rfl, rfl, rfl, rfl, rfl, rfl, rfl, rfl, id⟩

theorem wp_drainWrites_frame (bn : BlockDeviceNet) (s : σ) :
    wp E (netblkDrainWrites bn) (fun r _ => WriteFrame bn r.2) s := by
  unfold netblkDrainWrites
  split
  · exact wp_flushWrites_frame bn s
  · rw [wp_bind]
    refine wp_mono (wp_flushWrites_frame bn s) fun r s' hflush => ?_
    obtain ⟨rc, bn'⟩ := r
    simp only
    split
    · exact hflush
    · exact wp_mono (wp_drainLoop_frame _ _ s') fun _ _ hloop => hflush.trans hloop

theorem WriteFrame.configured {bn bn' : BlockDeviceNet} (hf : WriteFrame bn bn')
    (h : Configured bn) : Configured bn' where
  one_le_max := hf.maxSectors ▸ h.one_le_max
  max_le := hf.maxSectors ▸ h.max_le
  one_le_prefetch := hf.prefetchSectors ▸ h.one_le_prefetch
  prefetch_le := hf.prefetchSectors ▸ hf.maxSectors ▸ h.prefetch_le
  slots := hf.readCache ▸ h.slots
  next_lt := hf.readCacheNext ▸ h.next_lt
  nb_lt := hf.nbSectors ▸ h.nb_lt

theorem WriteFrame.inRange {bn bn' : BlockDeviceNet} (hf : WriteFrame bn bn') {sectorNum : Nat}
    {n : Int} (h : bn.inRange sectorNum n) : bn'.inRange sectorNum n := by
  unfold BlockDeviceNet.inRange at h ⊢
  rw [hf.maxSectors, hf.nbSectors]
  exact h

end Drain

def readDrain (bn : BlockDeviceNet) (sectorNum n : Nat) : NetProg (Int × BlockDeviceNet) :=
  if netblkWriteOverlaps bn sectorNum n then netblkDrainWrites bn else .ret (0, bn)

theorem netblkReadAsync_eq {bn : BlockDeviceNet} {sectorNum : Nat} {n : Int}
    (hr : bn.inRange sectorNum n) :
    netblkReadAsync bn sectorNum n = readDrain bn sectorNum n.toNat >>= fun r =>
      if r.1 < 0 then .ret (-1, r.2, [])
      else netblkReadLoop (sectorNum + n.toNat) (2 * n.toNat) r.2 sectorNum [] := by
  unfold netblkReadAsync readDrain
  rw [if_neg hr]
  simp only
  split <;> rfl

theorem wp_readDrain_frame {σ : Type} {E : Env netSig σ} (bn : BlockDeviceNet) (sectorNum n : Nat)
    (s : σ) : wp E (readDrain bn sectorNum n) (fun r _ => WriteFrame bn r.2) s := by
  unfold readDrain
  split
  · exact wp_drainWrites_frame bn s
  · exact WriteFrame.refl bn

theorem Configured.reading {bn : BlockDeviceNet} {sectorNum : Nat} {n : Int} (h : Configured bn)
    (hr : bn.inRange sectorNum n) :
    Reading (sectorNum + n.toNat) ⟨bn, sectorNum, []⟩ ∧
      turnsLeft (sectorNum + n.toNat) ⟨bn, sectorNum, []⟩ ≤ 2 * n.toNat := by
  unfold BlockDeviceNet.inRange at hr
  unfold turnsLeft
  refine ⟨⟨h, ?_, Nat.le_add_right _ _⟩, ?_⟩
  · simp only
    omega
  · simp only
    omega

/-- Every miss of a read is served from a good window, and `2 * n` turns are enough, whatever the
drain before them met. -/
theorem netblkRead_turns {bn : BlockDeviceNet} {sectorNum : Nat} {n : Int} (h : Configured bn)
    (hr : bn.inRange sectorNum n) :
    (netblkReadAsync bn sectorNum n = readDrain bn sectorNum n.toNat >>= fun r =>
      if r.1 < 0 then .ret (-1, r.2, [])
      else netblkReadLoop (sectorNum + n.toNat) (2 * n.toNat) r.2 sectorNum []) ∧
    (∀ (σ : Type) (E : Env netSig σ) (s : σ), wp E (readDrain bn sectorNum n.toNat)
      (fun r _ => Configured r.2 ∧ r.2.inRange sectorNum n ∧
        Serves (sectorNum + n.toNat) (2 * n.toNat) ⟨r.2, sectorNum, []⟩
          (netblkReadLoop (sectorNum + n.toNat) (2 * n.toNat) r.2 sectorNum [])) s) ∧
    (∀ k s, ReadTurns (sectorNum + n.toNat) k ⟨bn, sectorNum, []⟩ s →
      k ≤ 2 * n.toNat ∧
      (s.cur < sectorNum + n.toNat → netblkFindCache s.bn s.cur = none →
        MissServed (sectorNum + n.toNat) s)) ∧
    ∀ fuel, 2 * n.toNat ≤ fuel →
      netblkReadLoop (sectorNum + n.toNat) fuel bn sectorNum [] =
        netblkReadLoop (sectorNum + n.toNat) (2 * n.toNat) bn sectorNum [] := by
  obtain ⟨hstart, hleft⟩ := h.reading hr
  refine ⟨netblkReadAsync_eq hr, ?_, ?_, ?_⟩
  · intro σ E s
    refine wp_mono (wp_readDrain_frame bn sectorNum n.toNat s) fun r _ hf => ?_
    obtain ⟨hreading, hturns⟩ := (hf.configured h).reading (hf.inRange hr)
    exact ⟨hf.configured h, hf.inRange hr, netblkReadLoop_serves hreading hturns⟩
  · intro k s hturns
    have hrun := hturns.reading hstart
    exact ⟨by omega, fun hlt _ => hrun.1.missServed hlt⟩
  · intro fuel hfuel
    exact netblkReadLoop_fuel hstart (by omega) hleft

theorem freshSize_lt : 100 < 2 ^ 54 := by decide

def freshImage : Disk := ⟨defaultConfig, 100, fun _ _ => 0, freshSize_lt⟩

def freshDevice : BlockDeviceNet := helloDevice {} freshImage

theorem freshDevice_configured : Configured freshDevice :=
  ⟨by decide, by decide, by decide, by decide, rfl, by decide, by decide⟩

/-- The first sector of a read of the last four misses: its window is cut at the end of the disk. -/
theorem netblkRead_turns_fresh :
    wp faultless (readDrain freshDevice 96 4)
      (fun r _ => Configured r.2 ∧ r.2.inRange 96 4 ∧
        Serves 100 8 ⟨r.2, 96, []⟩ (netblkReadLoop 100 8 r.2 96 []))
      ⟨freshImage, []⟩ ∧
    (netblkFetchWindow freshDevice 96 100 = (64, 36) ∧
      MissServed 100 ⟨freshDevice, 96, []⟩) ∧
    netblkReadLoop 100 9 freshDevice 96 [] = netblkReadLoop 100 8 freshDevice 96 [] :=
  have hr : freshDevice.inRange 96 4 := by unfold BlockDeviceNet.inRange; decide
  have hturns := netblkRead_turns freshDevice_configured hr
  ⟨hturns.2.1 _ faultless _,
    ⟨by decide, (hturns.2.2.1 0 _ (.none _)).2 (by decide) (by decide)⟩,
    hturns.2.2.2 9 (by decide)⟩

end Winspire.Netblk
