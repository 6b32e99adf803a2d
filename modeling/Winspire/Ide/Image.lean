import Winspire.Ide.State

/-!
# Image files

What `block_device_init` makes of a file: where the sectors start, how many there are, and the
geometry it found, if it found one.
-/

namespace Winspire.Ide

set_option autoImplicit false

def sectorSize : Nat := 512

structure ImageFile where
  size : Nat
  bytes : Nat → UInt8

/-- What is read after a seek to `off`: less than was asked for at the end of the file. -/
def ImageFile.fread (f : ImageFile) (off len : Nat) : List UInt8 :=
  slice f.bytes off (min len (f.size - off))

inductive BlockDeviceMode where
  | ro
  | rw
  | snapshot
  deriving DecidableEq

/-- `hasChs` says that the device has a `get_chs`. The counts are not negative; `cylinders` is
converted to `int` and may be. -/
structure BlockDeviceFile where
  f : ImageFile
  startOffset : Nat
  cylinders : Int := 0
  heads : Nat := 0
  sectors : Nat := 0
  nbSectors : Nat
  mode : BlockDeviceMode
  sectorTable : Nat → Option (List UInt8) := fun _ => none
  hasChs : Bool := false

def ideMagic : List UInt8 := chars "1DED15C0"

def bfGetLe16 (p : List UInt8) (i : Nat) : Nat := LittleEndian.get ((p.drop i).take 2)

def bfGetLe32 (p : List UInt8) (i : Nat) : Nat := LittleEndian.get ((p.drop i).take 4)

/-- The first used entry of the partition table, or the first active one. -/
def findPart (mbr : List UInt8) : List Nat → Option Nat → Option Nat
  | [], part => part
  | candidate :: rest, part =>
    if mbr.getD (candidate + 4) 0 ≠ 0 ∧ (part = none ∨ mbr.getD candidate 0 = 0x80) then
      if mbr.getD candidate 0 = 0x80 then some candidate else findPart mbr rest (some candidate)
    else findPart mbr rest part

/-- A sector that was read whole and carries the boot signature. -/
def bootable (sector : List UInt8) : Prop :=
  sector.length = sectorSize ∧ sector.getD 510 0 = 0x55 ∧ sector.getD 511 0 = 0xaa

instance (sector : List UInt8) : Decidable (bootable sector) :=
  inferInstanceAs (Decidable (sector.length = sectorSize ∧ _ ∧ _))

structure Geometry where
  cylinders : Int
  heads : Nat
  sectors : Nat
  deriving DecidableEq

/-- The geometry the boot sector of a partition names, if the CHS address of the partition
table agrees with it. -/
def bpbChs (mbr boot : List UInt8) (part nbSectors : Nat) : Option Geometry :=
  let startLba := bfGetLe32 mbr (part + 8)
  let spt := bfGetLe16 boot 24
  let hds := bfGetLe16 boot 26
  if spt < 1 ∨ 63 < spt ∨ hds < 1 ∨ 16 < hds then none
  else
    let startHead := (mbr.getD (part + 1) 0).toNat
    let startSector := (mbr.getD (part + 2) 0 &&& 0x3f).toNat
    let startCyl := (mbr.getD (part + 3) 0).toNat ||| (mbr.getD (part + 2) 0 &&& 0xc0).toNat <<< 2
    if startSector = 0 ∨
        ((startCyl * hds + startHead) * spt + startSector - 1) % 2 ^ 32 ≠ startLba then none
    else
      let cylinders := int32 ((nbSectors + hds * spt - 1) / (hds * spt) : Nat)
      some ⟨if cylinders > 16383 then 16383 else cylinders, hds, spt⟩

def bfDetectBpbChs (f : ImageFile) (nbSectors : Nat) : Option Geometry :=
  let mbr := f.fread 0 sectorSize
  if ¬bootable mbr then none
  else
    match findPart mbr [446, 462, 478, 494] none with
    | none => none
    | some part =>
      let startLba := bfGetLe32 mbr (part + 8)
      if startLba = 0 ∨ startLba ≥ nbSectors then none
      else
        let boot := f.fread (startLba * sectorSize) sectorSize
        if ¬bootable boot then none else bpbChs mbr boot part nbSectors

def BlockDeviceFile.setChs (bf : BlockDeviceFile) (g : Geometry) : BlockDeviceFile :=
  { bf with cylinders := g.cylinders, heads := g.heads, sectors := g.sectors, hasChs := true }

/-- An image in the old format starts with a header of two sectors. -/
def imageStart (f : ImageFile) (mode : BlockDeviceMode) : Nat :=
  if (mode = .ro ∨ mode = .rw) ∧ f.fread 0 8 = ideMagic then 1024 else 0

/-- `none` if the header is cut short. -/
def blockDeviceInit (f : ImageFile) (mode : BlockDeviceMode) : Option BlockDeviceFile :=
  let startOffset := imageStart f mode
  if f.size < startOffset then none
  else
    let bf : BlockDeviceFile :=
      { f, startOffset, nbSectors := (f.size - startOffset) / sectorSize, mode }
    if startOffset ≠ 0 then
      let buf := f.fread 512 (7 * 2)
      if buf.length = 7 * 2 then
        some (bf.setChs ⟨bfGetLe16 buf 2, bfGetLe16 buf 6, bfGetLe16 buf 12⟩)
      else some bf
    else
      match bfDetectBpbChs f bf.nbSectors with
      | some g => some (bf.setChs g)
      | none => some bf

def BlockDeviceFile.getChs (bf : BlockDeviceFile) : Option Geometry :=
  if bf.hasChs then some ⟨bf.cylinders, bf.heads, bf.sectors⟩ else none

@[simp] theorem ImageFile.length_fread (f : ImageFile) (off len : Nat) :
    (f.fread off len).length = min len (f.size - off) := by
  simp [fread]

theorem ImageFile.fread_of_le (f : ImageFile) {off len : Nat} (h : off + len ≤ f.size) :
    f.fread off len = slice f.bytes off len := by
  rw [fread, Nat.min_eq_left (by omega)]

theorem imageStart_cases (f : ImageFile) (mode : BlockDeviceMode) :
    imageStart f mode = 1024 ∧ mode ≠ .snapshot ∧ f.fread 0 8 = ideMagic ∨
      imageStart f mode = 0 ∧ (mode = .snapshot ∨ f.fread 0 8 ≠ ideMagic) := by
  by_cases h : (mode = .ro ∨ mode = .rw) ∧ f.fread 0 8 = ideMagic
  · refine .inl ⟨if_pos h, ?_, h.2⟩
    rintro rfl
    rcases h.1 with h | h <;> cases h
  · refine .inr ⟨if_neg h, ?_⟩
    cases mode with
    | ro => exact .inr fun hm => h ⟨.inl rfl, hm⟩
    | rw => exact .inr fun hm => h ⟨.inr rfl, hm⟩
    | snapshot => exact .inl rfl

theorem bpbChs_bounds {mbr boot : List UInt8} {part nbSectors : Nat} {g : Geometry}
    (h : bpbChs mbr boot part nbSectors = some g) :
    1 ≤ g.heads ∧ g.heads ≤ 16 ∧ 1 ≤ g.sectors ∧ g.sectors ≤ 63 := by
  unfold bpbChs at h
  simp only at h
  split at h
  · cases h
  · rename_i hcheck
    split at h
    · cases h
    · cases h
      simp only
      omega

theorem bfDetectBpbChs_bounds {f : ImageFile} {nbSectors : Nat} {g : Geometry}
    (h : bfDetectBpbChs f nbSectors = some g) :
    1 ≤ g.heads ∧ g.heads ≤ 16 ∧ 1 ≤ g.sectors ∧ g.sectors ≤ 63 := by
  unfold bfDetectBpbChs at h
  simp only at h
  split at h
  · cases h
  · split at h
    · cases h
    · split at h
      · cases h
      · split at h
        · cases h
        · exact bpbChs_bounds h

inductive Accepted (f : ImageFile) (mode : BlockDeviceMode) : BlockDeviceFile → Prop where
  | header (hmode : mode ≠ .snapshot) (hmagic : f.fread 0 8 = ideMagic) (hsize : 1024 ≤ f.size) :
      Accepted f mode (BlockDeviceFile.setChs
        { f, startOffset := 1024, nbSectors := (f.size - 1024) / sectorSize, mode }
        ⟨bfGetLe16 (slice f.bytes 512 14) 2, bfGetLe16 (slice f.bytes 512 14) 6,
          bfGetLe16 (slice f.bytes 512 14) 12⟩)
  | bpb (hraw : mode = .snapshot ∨ f.fread 0 8 ≠ ideMagic) {g : Geometry}
      (hg : bfDetectBpbChs f (f.size / sectorSize) = some g) :
      Accepted f mode (BlockDeviceFile.setChs
        { f, startOffset := 0, nbSectors := f.size / sectorSize, mode } g)
  | plain (hraw : mode = .snapshot ∨ f.fread 0 8 ≠ ideMagic) :
      Accepted f mode { f, startOffset := 0, nbSectors := f.size / sectorSize, mode }

theorem blockDeviceInit_accepted {f : ImageFile} {mode : BlockDeviceMode} {bf : BlockDeviceFile}
    (h : blockDeviceInit f mode = some bf) : Accepted f mode bf := by
  unfold blockDeviceInit at h
  rcases imageStart_cases f mode with ⟨hstart, hmode, hmagic⟩ | ⟨hstart, hraw⟩
  · simp only [hstart] at h
    by_cases hsize : f.size < 1024
    · rw [if_pos hsize] at h
      cases h
    · -- the header is there, so its second sector is read whole
      have hread : f.fread 512 (7 * 2) = slice f.bytes 512 14 := f.fread_of_le (by omega)
      rw [if_neg hsize, if_pos (by decide), hread, if_pos (by simp)] at h
      cases h
      exact .header hmode hmagic (by omega)
  · simp only [hstart, Nat.not_lt_zero, if_false, ne_eq, not_true_eq_false, Nat.sub_zero] at h
    split at h
    · rename_i g hg
      cases h
      exact .bpb hraw hg
    · cases h
      exact .plain hraw

end Winspire.Ide
