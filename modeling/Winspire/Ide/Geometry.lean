import Winspire.Ide.Image
import Winspire.Ide.Port
import Winspire.Ide.Transfer

/-!
# The geometry of a drive

A drive gets the geometry its image names, or one computed from its size. With at most 16 heads
and at least one sector per track, an address in cylinders, heads and sectors fits in the
registers. A geometry guessed from a boot sector is checked for that, one from an image header
is not.
-/

namespace Winspire.Ide

set_option autoImplicit false

/-- What `ide_hddrive_init` stores. -/
def driveGeometry (bf : BlockDeviceFile) : Geometry :=
  let cylinders : Nat := bf.nbSectors / (16 * 63) % 2 ^ 32
  let cylinders : Nat :=
    if cylinders > 16383 then 16383 else if cylinders < 2 then 2 else cylinders
  bf.getChs.getD ⟨cylinders, 16, 63⟩

/-- The drive registers hold an address in cylinders, heads and sectors. -/
def ChsMode (s : IDEState) : Prop := s.select &&& 0x40 = 0

namespace Geometry

/-- Every sector has an address of its own, for the register widths of the drive. -/
def RoundTrip (g : Geometry) : Prop :=
  g.cylinders ≤ 65536 → g.sectors ≤ 255 → ∀ s : IDEState, s.heads = g.heads →
    s.sectors = g.sectors → ChsMode s → ∀ n : Nat, n < g.cylinders * g.heads * g.sectors →
      ideGetSector (ideSetSector s n) = n

structure Usable (g : Geometry) : Prop where
  one_le_heads : 1 ≤ g.heads
  heads_le : g.heads ≤ 16
  one_le_sectors : 1 ≤ g.sectors
  roundTrip : g.RoundTrip

end Geometry

theorem ideGetSector_chs {s : IDEState} (h : ChsMode s) :
    ideGetSector s = ((s.hcyl.toNat * 256 + s.lcyl.toNat : Nat) : Int) * s.heads * s.sectors +
      (s.select.toNat % 16 : Nat) * s.sectors + (s.sector.toNat - 1) := by
  have hl := s.lcyl.toNat_lt
  have hcyl : s.hcyl.toNat <<< 8 ||| s.lcyl.toNat = s.hcyl.toNat * 256 + s.lcyl.toNat := by
    rw [← Nat.shiftLeft_add_eq_or_of_lt (by omega), Nat.shiftLeft_eq]
  have hget : ideGetSector s = ((s.hcyl.toNat <<< 8 ||| s.lcyl.toNat : Nat) : Int) * s.heads *
      s.sectors + (s.select &&& 0x0f).toNat * s.sectors + (s.sector.toNat - 1) :=
    if_neg (fun hne => hne h)
  rw [hget, hcyl, toNat_and_head]

theorem ideSetSector_chs {s : IDEState} (h : ChsMode s) (n : Nat) :
    ideSetSector s n = { s with
      hcyl := byteOf ((n / (s.heads * s.sectors) % 2 ^ 32 : Nat) / 256)
      lcyl := byteOf (n / (s.heads * s.sectors) % 2 ^ 32 : Nat)
      select := (s.select &&& 0xf0) |||
        (byteOf ((n % (s.heads * s.sectors) % 2 ^ 32 : Nat) / s.sectors) &&& 0x0f)
      sector := byteOf ((n % (s.heads * s.sectors) % 2 ^ 32 : Nat) % s.sectors + 1) } := by
  have htrack : (s.heads : Int) * s.sectors = (s.heads * s.sectors : Nat) :=
    (Int.natCast_mul _ _).symm
  unfold ideSetSector
  rw [if_neg (fun hne => hne h)]
  simp only [htrack, Int.natCast_emod, Int.natCast_ediv]
  rw [Int.tdiv_eq_ediv_of_nonneg (Int.natCast_nonneg n),
    Int.tmod_eq_emod_of_nonneg (Int.natCast_nonneg n)]
  rfl

theorem chsMode_ideSetSector {s : IDEState} (h : ChsMode s) (n : Nat) :
    ChsMode (ideSetSector s n) := by
  rw [ideSetSector_chs h]
  unfold ChsMode
  simp only
  rw [and_lba_bit]
  exact h

/-- The digits of a sector number: cylinder, head, and sector from 0 on. -/
structure ChsDigits (h s n c d r : Nat) : Prop where
  cylinder : n / (h * s) = c
  head : n % (h * s) / s = d
  sector : n % (h * s) % s = r
  value : n = c * h * s + d * s + r
  head_lt : d < h
  sector_lt : r < s

theorem exists_chsDigits {h s : Nat} (hh : 1 ≤ h) (hs : 1 ≤ s) (n : Nat) :
    ∃ c d r, ChsDigits h s n c d r := by
  have htrack : 0 < h * s := Nat.mul_pos hh hs
  refine ⟨_, _, _, rfl, rfl, rfl, ?_, ?_, Nat.mod_lt _ hs⟩
  · have hn := Nat.div_add_mod' n (h * s)
    have hr := Nat.div_add_mod' (n % (h * s)) s
    rw [← Nat.mul_assoc] at hn
    omega
  · exact Nat.div_lt_of_lt_mul (by rw [Nat.mul_comm s h]; exact Nat.mod_lt n htrack)

theorem ChsDigits.cylinder_lt {h s n c d r cylinders : Nat} (hd : ChsDigits h s n c d r)
    (hn : n < cylinders * h * s) : c < cylinders := by
  rw [← hd.cylinder]
  apply Nat.div_lt_of_lt_mul
  rw [Nat.mul_comm, ← Nat.mul_assoc]
  exact hn

theorem ideGetSector_ideSetSector_chs {s : IDEState} (hmode : ChsMode s)
    (hheads : 1 ≤ s.heads ∧ s.heads ≤ 16) (hsectors : 1 ≤ s.sectors ∧ s.sectors ≤ 255)
    {cylinders n : Nat} (hcyl : cylinders ≤ 65536) (hn : n < cylinders * s.heads * s.sectors) :
    ideGetSector (ideSetSector s n) = n := by
  obtain ⟨c, d, r, hdig⟩ := exists_chsDigits hheads.1 hsectors.1 n
  have hc := hdig.cylinder_lt hn
  have hd := hdig.head_lt
  have hr := hdig.sector_lt
  have hrem : n % (s.heads * s.sectors) < 2 ^ 32 := by
    have hlt := Nat.mod_lt n (Nat.mul_pos hheads.1 hsectors.1)
    have hle := Nat.mul_le_mul hheads.2 hsectors.2
    omega
  have hcyls : n / (s.heads * s.sectors) % 2 ^ 32 = c := by
    rw [hdig.cylinder, Nat.mod_eq_of_lt (by omega)]
  rw [ideGetSector_chs (chsMode_ideSetSector hmode n), ideSetSector_chs hmode]
  simp only
  rw [hcyls, Nat.mod_eq_of_lt hrem, ← Int.natCast_ediv, ← Int.natCast_emod, hdig.head, hdig.sector,
    ← toNat_and_head, and_head_bits, toNat_and_head, toNat_byteOf, toNat_byteOf, toNat_byteOf,
    toNat_byteOf]
  have hhi : (((c : Int) / 256 % 256).toNat * 256 + ((c : Int) % 256).toNat : Nat) = c := by omega
  have hhead : ((d : Int) % 256).toNat % 16 = d := by omega
  have hsec : (((((r : Int) + 1) % 256).toNat : Nat) : Int) - 1 = r := by omega
  rw [hhi, hhead, hsec]
  exact (congrArg Nat.cast hdig.value).symm

theorem Geometry.roundTrip_of_bounds {g : Geometry} (hh : 1 ≤ g.heads ∧ g.heads ≤ 16)
    (hs : 1 ≤ g.sectors) : g.RoundTrip := by
  intro hcyl hsec s heads sectors hmode n hn
  rw [← heads] at hh
  rw [← sectors] at hs hsec
  rw [← heads, ← sectors] at hn
  have hpos : 0 ≤ g.cylinders := by
    by_contra hneg
    have hle : g.cylinders * s.heads * s.sectors ≤ 0 := by
      rw [Int.mul_assoc]
      exact Int.mul_nonpos_of_nonpos_of_nonneg (by omega)
        (Int.mul_nonneg (Int.natCast_nonneg _) (Int.natCast_nonneg _))
    omega
  obtain ⟨cylinders, hcylinders⟩ := Int.eq_ofNat_of_zero_le hpos
  rw [hcylinders] at hn hcyl
  have hlt : n < cylinders * s.heads * s.sectors := by exact_mod_cast hn
  exact ideGetSector_ideSetSector_chs hmode hh ⟨hs, hsec⟩ (by omega) hlt

theorem Geometry.usable_iff (g : Geometry) :
    g.Usable ↔ 1 ≤ g.heads ∧ g.heads ≤ 16 ∧ 1 ≤ g.sectors := by
  constructor
  · intro h
    exact ⟨h.one_le_heads, h.heads_le, h.one_le_sectors⟩
  · intro h
    exact ⟨h.1, h.2.1, h.2.2, roundTrip_of_bounds ⟨h.1, h.2.1⟩ h.2.2⟩

/-- The image is read in the old format, so its second sector names the geometry. -/
def HeaderInEffect (f : ImageFile) (mode : BlockDeviceMode) : Prop :=
  mode ≠ .snapshot ∧ f.fread 0 8 = ideMagic

def headerHeads (f : ImageFile) : Nat := bfGetLe16 (slice f.bytes 512 14) 6

def headerSectors (f : ImageFile) : Nat := bfGetLe16 (slice f.bytes 512 14) 12

theorem driveGeometry_setChs (bf : BlockDeviceFile) (g : Geometry) :
    driveGeometry (bf.setChs g) = g := rfl

theorem header_of_raw {f : ImageFile} {mode : BlockDeviceMode}
    (hraw : mode = .snapshot ∨ f.fread 0 8 ≠ ideMagic) : ¬HeaderInEffect f mode := by
  rintro ⟨hmode, hmagic⟩
  rcases hraw with h | h
  · exact hmode h
  · exact h hmagic

/-- The drive has the geometry found. A negative number of cylinders, of an image of a tebibyte or
more, is cut off at zero here. -/
theorem ideHddriveInit_geometry (maxMult : Nat) (h : 4 ≤ maxMult) (bs : Bool) {bf : BlockDeviceFile}
    (hsize : bf.nbSectors < 2 ^ 63) :
    let s := ideHddriveInit maxMult h bs bf.nbSectors
      (bf.getChs.map fun g => (g.cylinders.toNat, g.heads, g.sectors))
    s.cylinders = (driveGeometry bf).cylinders.toNat ∧ s.heads = (driveGeometry bf).heads ∧
      s.sectors = (driveGeometry bf).sectors := by
  have hnb : ((bf.nbSectors : Int) % 2 ^ 64).toNat = bf.nbSectors := by omega
  unfold ideHddriveInit driveGeometry
  rw [hnb]
  cases bf.getChs with
  | none => exact ⟨(Int.toNat_natCast _).symm, rfl, rfl⟩
  | some g => exact ⟨rfl, rfl, rfl⟩

/-- The geometry is usable, unless a header names one that is not. -/
theorem geometry_usable_iff {f : ImageFile} {mode : BlockDeviceMode} {bf : BlockDeviceFile}
    (h : blockDeviceInit f mode = some bf) :
    (driveGeometry bf).Usable ↔
      (HeaderInEffect f mode → 1 ≤ headerHeads f ∧ headerHeads f ≤ 16 ∧ 1 ≤ headerSectors f) := by
  rw [Geometry.usable_iff]
  cases blockDeviceInit_accepted h with
  | header hmode hmagic hsize =>
    rw [driveGeometry_setChs]
    constructor
    · intro hbounds _
      exact hbounds
    · intro hheader
      exact hheader ⟨hmode, hmagic⟩
  | @bpb hraw g hg =>
    have hbounds := bfDetectBpbChs_bounds hg
    rw [driveGeometry_setChs]
    constructor
    · intro _ hheader
      exact absurd hheader (header_of_raw hraw)
    · intro _
      exact ⟨hbounds.1, hbounds.2.1, hbounds.2.2.1⟩
  | plain hraw =>
    constructor
    · intro _ hheader
      exact absurd hheader (header_of_raw hraw)
    · intro _
      change 1 ≤ 16 ∧ 16 ≤ 16 ∧ 1 ≤ 63
      omega

/-- A header with 20 cylinders, 16 heads and 63 sectors per track. -/
def diskImage : ImageFile where
  size := 1024 + 512 * 16 * 63 * 20
  bytes := fun i => if i = 514 then 20 else if i = 518 then 16 else if i = 524 then 63
    else ideMagic.getD i 0

def diskDevice : BlockDeviceFile :=
  BlockDeviceFile.setChs
    { f := diskImage, startOffset := 1024, nbSectors := 16 * 63 * 20, mode := .rw } ⟨20, 16, 63⟩

theorem blockDeviceInit_diskImage : blockDeviceInit diskImage .rw = some diskDevice := by
  have hstart : imageStart diskImage .rw = 1024 := by decide
  have hread : diskImage.fread 512 (7 * 2) = [0, 0, 20, 0, 0, 0, 16, 0, 0, 0, 0, 0, 63, 0] := by
    decide
  unfold blockDeviceInit
  simp only [hstart, hread]
  rfl

theorem geometry_usable_iff_diskImage :
    HeaderInEffect diskImage .rw ∧ (driveGeometry diskDevice).Usable := by
  refine ⟨⟨by decide, by decide⟩, (geometry_usable_iff blockDeviceInit_diskImage).mpr fun _ => ?_⟩
  exact ⟨by decide, by decide, by decide⟩

/-- A header that says nothing about the geometry. -/
def bareImage : ImageFile where
  size := 1024
  bytes := fun i => ideMagic.getD i 0

def bareDevice : BlockDeviceFile :=
  BlockDeviceFile.setChs { f := bareImage, startOffset := 1024, nbSectors := 0, mode := .rw } ⟨0, 0, 0⟩

theorem blockDeviceInit_bareImage : blockDeviceInit bareImage .rw = some bareDevice := by
  have hstart : imageStart bareImage .rw = 1024 := by decide
  have hread : bareImage.fread 512 (7 * 2) = List.replicate 14 0 := by decide
  unfold blockDeviceInit
  simp only [hstart, hread]
  rfl

/-- The bare header gives the drive no heads and no sectors per track. -/
theorem bareImage_divides_by_zero :
    ¬∀ (f : ImageFile) (mode : BlockDeviceMode) (bf : BlockDeviceFile),
      blockDeviceInit f mode = some bf → (driveGeometry bf).Usable := by
  intro hall
  have husable := hall bareImage .rw bareDevice blockDeviceInit_bareImage
  have hheads : (driveGeometry bareDevice).heads = 0 := rfl
  have hone := husable.one_le_heads
  omega

end Winspire.Ide
