import Winspire.Ide.FileCache

/-!
# What the read cache shows

A window that is in use holds what the image holds, since every write empties all of them. So a
call with the cache does what the call without it does, except that a read can succeed where the
access of the file that it stands for fails.
-/

namespace Winspire.Ide

set_option autoImplicit false

theorem FileAccess.read_of_done {a : FileAccess} {f : ImageFile} {off len : Nat}
    (h : a.readDone f off len) : a.read f off len = slice f.bytes off len := by
  obtain ⟨hseek, hlen⟩ := h
  unfold FileAccess.read at hlen ⊢
  rw [if_pos hseek] at hlen ⊢
  have hall : (f.fread off len).take a.moved = f.fread off len := by
    apply List.take_of_length_le
    simp only [List.length_take, ImageFile.length_fread] at hlen ⊢
    omega
  rw [hall, ImageFile.length_fread] at hlen
  rw [hall, ImageFile.fread, hlen]

theorem BlockDeviceFile.readFile_cases (bf : BlockDeviceFile) (direct : FileAccess)
    (sectorNum n : Nat) :
    bf.readFile direct sectorNum n = (0, bf.content sectorNum n) ∨
      ¬direct.readDone bf.f (bf.offset sectorNum) (n * sectorSize) ∧
        (bf.readFile direct sectorNum n).1 = -1 := by
  by_cases h : direct.readDone bf.f (bf.offset sectorNum) (n * sectorSize)
  · left
    unfold BlockDeviceFile.readFile
    simp only
    rw [if_pos h, FileAccess.read_of_done h]
    rfl
  · exact .inr ⟨h, if_neg h⟩

theorem BlockDeviceFile.content_slice (bf : BlockDeviceFile) {buf : Nat → UInt8}
    {sector sectors sectorNum n : Nat}
    (h : slice buf 0 (sectors * sectorSize) = bf.content sector sectors)
    (hlo : sector ≤ sectorNum) (hhi : sectorNum + n ≤ sector + sectors) :
    slice buf ((sectorNum - sector) * sectorSize) (n * sectorSize) = bf.content sectorNum n := by
  have hin : (sectorNum - sector) * sectorSize + n * sectorSize ≤ sectors * sectorSize := by
    rw [← Nat.add_mul]
    exact Nat.mul_le_mul_right _ (by omega)
  have hoff : bf.offset sector + (sectorNum - sector) * sectorSize = bf.offset sectorNum := by
    unfold BlockDeviceFile.offset sectorSize
    omega
  have hbuf := slice_drop_take buf 0 hin
  rw [Nat.zero_add] at hbuf
  rw [← hbuf, h, BlockDeviceFile.content, slice_drop_take _ _ hin, hoff]
  rfl

theorem NspireBuild.windows_pos (build : NspireBuild) : 0 < build.windows := by
  cases build with
  | full => decide
  | lowMem => decide
  | xpeLowMem => decide

/-- A window in use holds sectors of the image. -/
def ReadWindow.Holds (bf : BlockDeviceFile) (w : ReadWindow) : Prop :=
  ∀ buf, w.buf = some buf → w.sectors ≠ 0 →
    slice buf 0 (w.sectors * sectorSize) = bf.content w.sector w.sectors

structure Coherent (build : NspireBuild) (bf : BlockDeviceFile) (c : ReadCache) : Prop where
  slots : c.windows.length = build.windows
  next_lt : c.next < build.windows
  holds : ∀ w ∈ c.windows, w.Holds bf

theorem ReadWindow.holds_of_empty (bf : BlockDeviceFile) {w : ReadWindow} (h : w.sectors = 0) :
    w.Holds bf :=
  fun _ _ hne => absurd h hne

theorem ReadWindow.serve_content {bf : BlockDeviceFile} {w : ReadWindow} (h : w.Holds bf)
    {sectorNum n : Nat} {data : List UInt8} (hserve : w.serve sectorNum n = some data) :
    data = bf.content sectorNum n := by
  unfold ReadWindow.serve at hserve
  split at hserve
  · cases hserve
  · rename_i buf hbuf
    split at hserve
    · rename_i hin
      cases hserve
      exact bf.content_slice (h buf hbuf hin.1) hin.2.1 hin.2.2
    · cases hserve

namespace Coherent
variable {build : NspireBuild} {bf : BlockDeviceFile} {c : ReadCache}

theorem init (build : NspireBuild) (bf : BlockDeviceFile) (alloc : Nat → Option (Nat → UInt8)) :
    Coherent build bf (.init build alloc) where
  slots := by simp [ReadCache.init]
  next_lt := build.windows_pos
  holds w hw := by
    obtain ⟨i, _, rfl⟩ := List.mem_map.mp hw
    exact ReadWindow.holds_of_empty bf rfl

theorem invalidate (h : Coherent build bf c) (bf' : BlockDeviceFile) :
    Coherent build bf' (bfInvalidateReadCache c) where
  slots := by simp [bfInvalidateReadCache, h.slots]
  next_lt := h.next_lt
  holds w hw := by
    obtain ⟨v, _, rfl⟩ := List.mem_map.mp hw
    exact ReadWindow.holds_of_empty bf' rfl

theorem setSlot (h : Coherent build bf c) {w : ReadWindow} (hw : w.Holds bf) {next : Nat}
    (hnext : next < build.windows) : Coherent build bf { c.setSlot w with next } where
  slots := by simp [ReadCache.setSlot, h.slots]
  next_lt := hnext
  holds v hv := by
    rcases List.mem_or_eq_of_mem_set hv with hmem | rfl
    · exact h.holds v hmem
    · exact hw

theorem hit (h : Coherent build bf c) {sectorNum n : Nat} {data : List UInt8}
    (hfind : (c.windows.findSome? fun w => w.serve sectorNum n) = some data) :
    data = bf.content sectorNum n := by
  obtain ⟨w, hw, hserve⟩ := List.exists_of_findSome?_eq_some hfind
  exact ReadWindow.serve_content (h.holds w hw) hserve

theorem fill (h : Coherent build bf c) (a : FileAccess) (sectorNum n : Nat) :
    Coherent build bf (bfFillWindow build bf c a sectorNum n).2 ∧
      ∀ buf, (bfFillWindow build bf c a sectorNum n).1 = some buf →
        slice buf 0 (n * sectorSize) = bf.content sectorNum n := by
  have hempty : ∀ buf, Coherent build bf (c.setSlot { c.slot with buf, sectors := 0 }) := fun buf =>
    h.setSlot (ReadWindow.holds_of_empty bf rfl) h.next_lt
  unfold bfFillWindow
  simp only
  generalize hsize : min build.sectors (bf.nbSectors - sectorNum) = cacheSectors
  cases hslot : c.slot.buf with
  | none => exact ⟨h.setSlot (ReadWindow.holds_of_empty bf rfl) h.next_lt, fun _ hnone => by cases hnone⟩
  | some buf =>
    simp only
    by_cases hn : n ≤ cacheSectors
    · rw [if_pos hn]
      by_cases hdone : a.readDone bf.f (bf.offset sectorNum) (cacheSectors * sectorSize)
      · -- the window holds what was read, and the request is its first part
        have hread : a.read bf.f (bf.offset sectorNum) (cacheSectors * sectorSize) =
            bf.content sectorNum cacheSectors := FileAccess.read_of_done hdone
        have hlen := hdone.2
        have hholds : slice (blit buf 0 (a.read bf.f (bf.offset sectorNum)
            (cacheSectors * sectorSize))) 0 (cacheSectors * sectorSize) =
            bf.content sectorNum cacheSectors := by
          have hself := slice_blit_self buf 0 (a.read bf.f (bf.offset sectorNum)
            (cacheSectors * sectorSize))
          rw [hlen] at hself
          rw [hself, hread]
        rw [if_pos hdone]
        refine ⟨h.setSlot ?_ (Nat.mod_lt _ build.windows_pos), ?_⟩
        · intro buf' hbuf' _
          cases hbuf'
          exact hholds
        · intro buf' hbuf'
          cases hbuf'
          have hfirst := bf.content_slice hholds (Nat.le_refl sectorNum)
            (show sectorNum + n ≤ sectorNum + cacheSectors by omega)
          rw [Nat.sub_self, Nat.zero_mul] at hfirst
          exact hfirst
      · rw [if_neg hdone]
        exact ⟨hempty _, fun _ hnone => by cases hnone⟩
    · rw [if_neg hn]
      exact ⟨h.setSlot (ReadWindow.holds_of_empty bf rfl) h.next_lt, fun _ hnone => by cases hnone⟩

end Coherent

/-- A read gives the image although its own access of the file fails. -/
def Rescued (bf : BlockDeviceFile) (h : FileAccesses) (sectorNum : UInt64) (n : Int)
    (r r' : Int × List UInt8) : Prop :=
  bf.admits sectorNum n ∧ r = (0, bf.content sectorNum.toNat n.toNat) ∧ r'.1 = -1 ∧
    ¬(h.direct 0).readDone bf.f (bf.offset sectorNum.toNat) (n.toNat * sectorSize)

/-- What is read from the image agrees with what a build without the cache reads. -/
theorem agrees_of_content {bf : BlockDeviceFile} {h : FileAccesses} {sectorNum : UInt64} {n : Int}
    (hadmits : bf.admits sectorNum n) {data : List UInt8}
    (hdata : data = bf.content sectorNum.toNat n.toNat) :
    ((0, data) : Int × List UInt8) = bf.readFile (h.direct 0) sectorNum.toNat n.toNat ∨
      Rescued bf h sectorNum n (0, data) (bf.readFile (h.direct 0) sectorNum.toNat n.toNat) := by
  subst hdata
  rcases bf.readFile_cases (h.direct 0) sectorNum.toNat n.toNat with hread | ⟨hfail, hret⟩
  · exact .inl hread.symm
  · exact .inr ⟨hadmits, rfl, hret, hfail⟩

theorem Coherent.read {build : NspireBuild} {bf : BlockDeviceFile} {c : ReadCache}
    (hc : Coherent build bf c) (h : FileAccesses) (sectorNum : UInt64) (n : Int) :
    Coherent build bf (bfReadAsyncCached build bf c h sectorNum n).2 ∧
      ((bfReadAsyncCached build bf c h sectorNum n).1 = bfReadAsync bf h sectorNum n ∨
        Rescued bf h sectorNum n (bfReadAsyncCached build bf c h sectorNum n).1
          (bfReadAsync bf h sectorNum n)) := by
  unfold bfReadAsyncCached bfReadAsync
  by_cases hadmits : bf.admits sectorNum n
  · rw [if_pos hadmits, if_pos hadmits]
    simp only
    by_cases hmode : bf.mode = .snapshot
    · rw [if_pos hmode, if_pos hmode]
      exact ⟨hc, .inl rfl⟩
    rw [if_neg hmode, if_neg hmode]
    cases hfind : c.windows.findSome? fun w => w.serve sectorNum.toNat n.toNat with
    | some data => exact ⟨hc, agrees_of_content hadmits (hc.hit hfind)⟩
    | none =>
      obtain ⟨hcache, hwindow⟩ := hc.fill h.fill sectorNum.toNat n.toNat
      rcases hfill : bfFillWindow build bf c h.fill sectorNum.toNat n.toNat with ⟨filled, c'⟩
      rw [hfill] at hcache hwindow
      cases filled with
      | some buf => exact ⟨hcache, agrees_of_content hadmits (hwindow buf rfl)⟩
      | none => exact ⟨hcache, .inl rfl⟩
  · rw [if_neg hadmits, if_neg hadmits]
    exact ⟨hc, .inl rfl⟩

theorem Coherent.write {build : NspireBuild} {bf : BlockDeviceFile} {c : ReadCache}
    (hc : Coherent build bf c) (h : FileAccesses) (sectorNum : UInt64) (buf : Nat → UInt8) (n : Int) :
    Coherent build (bfWriteAsyncCached bf c h sectorNum buf n).1.2
        (bfWriteAsyncCached bf c h sectorNum buf n).2 ∧
      (bfWriteAsyncCached bf c h sectorNum buf n).1 = bfWriteAsync bf h sectorNum buf n := by
  unfold bfWriteAsyncCached
  by_cases hadmits : bf.admits sectorNum n
  · rw [if_pos hadmits]
    exact ⟨hc.invalidate _, rfl⟩
  · rw [if_neg hadmits, bfWriteAsync, if_neg hadmits]
    exact ⟨hc, rfl⟩

/-- The same call on the same device, with the same result or a rescued one. -/
structure Turn.Agrees (t t' : Turn) : Prop where
  accesses : t.accesses = t'.accesses
  call : t.call = t'.call
  device : t.device = t'.device
  answer : t.ret = t'.ret ∧ t.data = t'.data ∨ ∃ sectorNum n, t.call = .read sectorNum n ∧
    Rescued t.device t.accesses sectorNum n (t.ret, t.data) (t'.ret, t'.data)

theorem Coherent.run {build : NspireBuild} {bf : BlockDeviceFile} {c : ReadCache}
    (hc : Coherent build bf c) (calls : List (FileAccesses × DiskCall)) :
    List.Forall₂ Turn.Agrees (cachedRun build bf c calls) (plainRun bf calls) := by
  induction calls generalizing bf c with
  | nil => exact .nil
  | cons call rest ih =>
    rcases call with ⟨h, ⟨sectorNum, n⟩ | ⟨sectorNum, n, buf⟩⟩
    · obtain ⟨hc', hanswer⟩ := hc.read h sectorNum n
      apply List.Forall₂.cons
      · refine ⟨rfl, rfl, rfl, ?_⟩
        rcases hanswer with heq | hrescued
        · exact .inl (Prod.ext_iff.mp heq)
        · exact .inr ⟨sectorNum, n, rfl, hrescued⟩
      · exact ih hc'
    · obtain ⟨hc', hanswer⟩ := hc.write h sectorNum buf n
      apply List.Forall₂.cons
      · exact ⟨rfl, rfl, rfl, .inl ⟨congrArg Prod.fst hanswer, rfl⟩⟩
      · have hdevice := congrArg Prod.snd hanswer
        have hrest := ih hc'
        rw [hdevice] at hrest
        change List.Forall₂ Turn.Agrees
          (cachedRun build (bfWriteAsyncCached bf c h sectorNum buf n).1.2 _ rest) _
        rw [hdevice]
        exact hrest

def blankImage : ImageFile where
  size := sectorSize
  bytes := fun _ => 0

def blankDevice : BlockDeviceFile :=
  { f := blankImage, startOffset := 0, nbSectors := 1, mode := .rw }

theorem blockDeviceInit_blankImage : blockDeviceInit blankImage .rw = some blankDevice := by
  have hstart : imageStart blankImage .rw = 0 := by decide
  have hboot : ¬bootable (blankImage.fread 0 sectorSize) := by
    rintro ⟨_, hsignature, _⟩
    revert hsignature
    decide +kernel
  have hdetect : ∀ nbSectors, bfDetectBpbChs blankImage nbSectors = none := by
    intro nbSectors
    unfold bfDetectBpbChs
    simp only [hboot, not_false_eq_true, if_true]
  have hcount : (blankImage.size - 0) / sectorSize = 1 := by decide
  unfold blockDeviceInit
  simp only [hstart, hdetect, hcount, Nat.not_lt_zero, if_false, ne_eq, not_true_eq_false]
  rfl

/-- The sector is read twice. The host serves the first read, and no access of the second. -/
def lostHost : List (FileAccesses × DiskCall) :=
  [({ fill := { moved := sectorSize }, direct := fun _ => { moved := sectorSize } }, .read 0 1),
    ({ fill := { moved := 0 }, direct := fun _ => { moved := 0 } }, .read 0 1)]

/-- The second read fails without the cache. -/
theorem lostHost_rescued :
    ¬∀ (build : NspireBuild) (f : ImageFile) (mode : BlockDeviceMode) (bf : BlockDeviceFile)
      (alloc : Nat → Option (Nat → UInt8)) (calls : List (FileAccesses × DiskCall)),
      mode = .ro ∨ mode = .rw → blockDeviceInit f mode = some bf →
        (cachedRun build bf (.init build alloc) calls).map (fun t => (t.ret, t.data)) =
          (plainRun bf calls).map fun t => (t.ret, t.data) := by
  intro hall
  have heq := hall .full blankImage .rw blankDevice (fun _ => some fun _ => 0) lostHost (.inr rfl)
    blockDeviceInit_blankImage
  have hrets := congrArg (List.map Prod.fst) heq
  revert hrets
  decide +kernel

/-- With the cache every call does what it does without, or is rescued by it. -/
theorem cachedRun_agrees (build : NspireBuild) (bf : BlockDeviceFile)
    (alloc : Nat → Option (Nat → UInt8)) (calls : List (FileAccesses × DiskCall)) :
    List.Forall₂ Turn.Agrees (cachedRun build bf (.init build alloc) calls) (plainRun bf calls) :=
  (Coherent.init build bf alloc).run calls

end Winspire.Ide
