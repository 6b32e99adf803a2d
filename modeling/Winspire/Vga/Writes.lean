import Winspire.Vga.WideWrites

/-!
# What a write to the window is made of

Writes of all widths are made of a few stores, each together with its marks. A relation that these
keep, and that can be chained, is kept by every write.
-/

namespace Winspire.Vga

set_option autoImplicit false

namespace VgaState

/-- The stores that writes are made of, with the bounds they are made within. -/
structure Stores (R : VgaState → VgaState → Prop) : Prop where
  refl : ∀ s, R s s
  trans : ∀ {s t u}, R s t → R t u → R s u
  count : ∀ s, R s s.countWrite
  chained : ∀ (s : VgaState) (addr : Word) (bytes : List Byte), s.regs.chain4 = true →
    addr.toNat + bytes.length ≤ s.ramSize →
    R s ((s.dirtyMode13 addr (BitVec.ofNat 32 bytes.length)).put addr bytes)
  oddEven : ∀ (s : VgaState) (addr : Word) (val : Byte), s.regs.chain4 = false →
    addr.toNat < s.ramSize → R s ((s.dirtyPlanar640 addr 1).put addr [val])
  planes : ∀ (s : VgaState) (addr val : Word), s.regs.chain4 = false →
    addr.toNat * 4 < s.ramSize →
    R s ((s.dirtyPlanar640 (addr * 4) 4).putWord addr.toNat val)
  fill : ∀ (s : VgaState) (addr mask keep : Word) (buf : List Byte), s.regs.chain4 = false →
    addr.toNat + buf.length ≤ s.ramSize / 4 →
    R s ((fillPlanes mask keep addr.toNat buf s).dirtyPlanar640 (addr * 4)
      (BitVec.ofNat 32 buf.length * 4))

variable {R : VgaState → VgaState → Prop} {s : VgaState}

theorem chain4Addr_some {addr len a : Word} (h : s.chain4Addr addr len = some a) :
    s.regs.chain4 = true ∧ a.toNat + len.toNat ≤ s.ramSize := by
  unfold chain4Addr at h
  dsimp only at h
  split at h
  · cases h
  · rename_i hbuild
    split at h
    · cases h
    · split at h
      · cases h
      · split at h
        · cases h
        · split at h
          · cases h
          · rename_i hsize
            cases h
            rw [not_or, not_not, not_not] at hbuild
            exact ⟨hbuild.2, by omega⟩

theorem Stores.shortcut (hR : Stores R) {addr len a : Word} {bytes : List Byte}
    (h : s.chain4Addr addr len = some a) (hlen : len = BitVec.ofNat 32 bytes.length)
    (hlt : bytes.length < 2 ^ 32) : R s ((s.dirtyMode13 a len).put a bytes) := by
  obtain ⟨hchain, hfits⟩ := chain4Addr_some h
  rw [hlen]
  apply hR.chained s a bytes hchain
  rw [hlen, BitVec.toNat_ofNat, Nat.mod_eq_of_lt hlt] at hfits
  exact hfits

theorem Stores.memWrite (hR : Stores R) (addr : Word) (val : Byte) (s : VgaState) :
    R s (VgaState.memWrite addr val s) := by
  refine hR.trans (hR.count s) ?_
  unfold VgaState.memWrite
  dsimp only
  generalize s.countWrite = s
  split
  · rename_i a ha
    exact hR.shortcut ha rfl (show 1 < 2 ^ 32 by decide)
  · split
    · exact hR.refl s
    · rename_i a _
      split
      · exact hR.refl s
      · rename_i hsize
        split
        · rename_i hchain
          split
          · exact hR.chained s a [val] hchain (Nat.lt_of_not_le hsize)
          · exact hR.refl s
        · rename_i hchain
          have hoff : s.regs.chain4 = false := Bool.eq_false_iff.mpr hchain
          split
          · unfold writeOddEven
            dsimp only
            split
            · split
              · exact hR.refl s
              · rename_i hbound
                exact hR.oddEven s _ val hoff (Nat.lt_of_not_le hbound)
            · exact hR.refl s
          · unfold writeLatched
            dsimp only
            split
            · exact hR.refl s
            · rename_i hbound
              exact hR.planes s a _ hoff (Nat.lt_of_not_le hbound)

theorem Stores.writeChain4 (hR : Stores R) (hchain : s.regs.chain4 = true) (addr : Word)
    (bytes : List Byte) : R s (s.writeChain4 addr bytes).2 := by
  unfold VgaState.writeChain4
  split
  · exact hR.refl s
  · rename_i a _
    split
    · exact hR.refl s
    · rename_i hbounds
      split
      · exact hR.chained s a bytes hchain (by omega)
      · exact hR.refl s

theorem Stores.memWrite16 (hR : Stores R) (addr : Word) (val : BitVec 16) (s : VgaState) :
    R s (VgaState.memWrite16 addr val s) := by
  refine hR.trans (hR.count s) ?_
  unfold VgaState.memWrite16
  dsimp only
  generalize s.countWrite = s
  split
  · rename_i a ha
    exact hR.shortcut ha rfl (show 2 < 2 ^ 32 by decide)
  · split
    · rename_i hchain
      exact hR.writeChain4 hchain addr _
    · exact hR.trans (hR.memWrite _ _ _) (hR.memWrite _ _ _)

theorem Stores.memWrite32 (hR : Stores R) (addr val : Word) (s : VgaState) :
    R s (VgaState.memWrite32 addr val s) := by
  refine hR.trans (hR.count s) ?_
  unfold VgaState.memWrite32
  dsimp only
  generalize s.countWrite = s
  split
  · rename_i a ha
    exact hR.shortcut ha rfl (show 4 < 2 ^ 32 by decide)
  · split
    · rename_i hchain
      exact hR.writeChain4 hchain addr _
    · exact hR.trans (hR.trans (hR.trans (hR.memWrite _ _ _) (hR.memWrite _ _ _))
        (hR.memWrite _ _ _)) (hR.memWrite _ _ _)

theorem Stores.planarWrite (hR : Stores R) (hchain : s.regs.chain4 = false) (addr : Word)
    (buf : List Byte) : R s (s.planarWrite addr buf).2 := by
  unfold VgaState.planarWrite
  dsimp only
  repeat' split
  all_goals first
    | exact hR.refl s
    | rename_i hfits
      exact hR.fill s _ _ _ buf hchain (by omega)

theorem Stores.memWriteString (hR : Stores R) (addr : Word) {buf : List Byte}
    (hlen : buf.length < 2 ^ 32) (s : VgaState) : R s (VgaState.memWriteString addr buf s).2 := by
  have hcount : R s (if buf = [] then s else s.countWrite) := by
    split
    · exact hR.refl s
    · exact hR.count s
  refine hR.trans hcount ?_
  unfold VgaState.memWriteString
  dsimp only
  generalize (if buf = [] then s else s.countWrite) = s
  split
  · rename_i a ha
    split at ha
    · cases ha
    · exact hR.shortcut ha rfl hlen
  · split
    · rename_i hchain
      exact hR.writeChain4 hchain addr buf
    · rename_i hchain
      exact hR.planarWrite (Bool.eq_false_iff.mpr hchain) addr buf

end VgaState

end Winspire.Vga
