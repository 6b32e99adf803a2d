import Winspire.Server.Host

/-!
# One request

What a request with arbitrary fields does to the image and how much of the stream it takes.
-/

namespace Winspire.Server

open Interaction Netblk

set_option autoImplicit false

def InImage (st : ServerState) (h : NetBlockHeader) : Prop :=
  h.lba.toNat + h.count.toNat ≤ st.imageBytes / sectorSize

def ReadAccepted (st : ServerState) (h : NetBlockHeader) : Prop :=
  0 < h.count.toNat ∧ h.count.toNat ≤ st.cfg.maxSectors ∧ InImage st h

def WriteAccepted (st : ServerState) (h : NetBlockHeader) : Prop :=
  st.cfg.readOnly = false ∧ 0 < h.count.toNat ∧ h.count.toNat ≤ netblkMaxSectors ∧
    h.bytes.toNat = h.count.toNat * sectorSize ∧ InImage st h

theorem sectorCount_toNat (st : ServerState) :
    st.sectorCount.toNat = st.imageBytes / sectorSize ∧ st.imageBytes / sectorSize < 2 ^ 54 := by
  have hlt := st.imageBytes_lt
  simp only [ServerState.sectorCount, sectorSize]
  rw [UInt64.toNat_ofNat', Nat.mod_eq_of_lt (by omega)]
  omega

/-- The sum wraps exactly when it falls below `lba`, so the two range checks are the integer one. -/
theorem range_checks (st : ServerState) (h : NetBlockHeader) :
    (¬h.lba + h.count.toUInt64 < h.lba ∧ ¬st.sectorCount < h.lba + h.count.toUInt64) ↔
      InImage st h := by
  obtain ⟨hcount, hlt⟩ := sectorCount_toNat st
  have hlba := h.lba.toNat_lt
  have hc := h.count.toNat_lt
  unfold InImage
  rw [UInt64.lt_iff_toNat_lt, UInt64.lt_iff_toNat_lt, UInt64.toNat_add, UInt32.toNat_toUInt64, hcount]
  omega

theorem count_pos_iff (h : NetBlockHeader) : (h.count == 0) = false ↔ 0 < h.count.toNat := by
  rw [beq_eq_false_iff_ne, ne_eq, ← UInt32.toNat_inj]
  simp [Nat.pos_iff_ne_zero]

theorem maxSectors_le_iff (st : ServerState) (h : NetBlockHeader) :
    ¬UInt32.ofNat st.cfg.maxSectors < h.count ↔ h.count.toNat ≤ st.cfg.maxSectors := by
  have hle := st.cfg.maxSectors_le
  simp only [netblkMaxSectors] at hle
  rw [UInt32.lt_iff_toNat_lt, UInt32.toNat_ofNat', Nat.mod_eq_of_lt (by omega)]
  omega

theorem readRejected_eq_false_iff (st : ServerState) (h : NetBlockHeader) :
    readRejected st h = false ↔ ReadAccepted st h := by
  unfold readRejected ReadAccepted
  rw [Bool.or_eq_false_iff, Bool.or_eq_false_iff, Bool.or_eq_false_iff, count_pos_iff,
    decide_eq_false_iff_not, decide_eq_false_iff_not, decide_eq_false_iff_not, range_checks,
    maxSectors_le_iff]

theorem writeRejected_eq_false_iff (st : ServerState) (h : NetBlockHeader) :
    writeRejected st h = false ↔ WriteAccepted st h := by
  unfold writeRejected WriteAccepted
  rw [Bool.or_eq_false_iff, Bool.or_eq_false_iff, Bool.or_eq_false_iff, Bool.or_eq_false_iff,
    Bool.or_eq_false_iff, count_pos_iff, decide_eq_false_iff_not, decide_eq_false_iff_not,
    decide_eq_false_iff_not, range_checks]
  have hmax : ¬UInt32.ofNat netblkMaxSectors < h.count ↔ h.count.toNat ≤ netblkMaxSectors := by
    rw [UInt32.lt_iff_toNat_lt]
    simp [netblkMaxSectors]
  rw [hmax]
  refine and_congr_right fun _ => and_congr_right fun _ => and_congr_right fun hle => ?_
  refine and_congr_left fun _ => ?_
  simp only [netblkMaxSectors] at hle
  rw [bne_eq_false_iff_eq, ← UInt32.toNat_inj, UInt32.toNat_mul]
  simp only [sectorSize]
  rw [show (512 : UInt32).toNat = 512 from rfl, Nat.mod_eq_of_lt (by omega)]

/-- In an accepted range nothing wraps: the byte offset and the length are the integer ones. -/
theorem accepted_offsets {st : ServerState} {h : NetBlockHeader} (hin : InImage st h)
    (hle : h.count.toNat ≤ netblkMaxSectors) :
    (h.lba * 512).toNat = h.lba.toNat * sectorSize ∧
      (h.count * 512).toNat = h.count.toNat * sectorSize ∧
      (h.lba.toNat + h.count.toNat) * sectorSize ≤ st.imageBytes := by
  obtain ⟨_, hlt⟩ := sectorCount_toNat st
  have hbytes := Nat.div_mul_le_self st.imageBytes sectorSize
  unfold InImage at hin
  simp only [netblkMaxSectors, sectorSize] at *
  rw [UInt64.toNat_mul, UInt32.toNat_mul, show (512 : UInt64).toNat = 512 from rfl,
    show (512 : UInt32).toNat = 512 from rfl]
  omega

theorem maxBytes_toNat (st : ServerState) :
    st.maxBytes.toNat = st.cfg.maxSectors * sectorSize ∧ 0 < st.maxBytes.toNat := by
  have hone := st.cfg.one_le_maxSectors
  have hle := st.cfg.maxSectors_le
  simp only [netblkMaxSectors, sectorSize] at *
  rw [ServerState.maxBytes, UInt32.toNat_mul, UInt32.toNat_ofNat',
    show (512 : UInt32).toNat = 512 from rfl]
  omega

/-- A client at the other end of the socket and an image behind the server. Where `smooth` holds,
neither fails. -/
def attached (smooth : Prop) : Env (wire hostSig) (Peer Image) := peer smooth (imageHost smooth)

theorem netblkIoChunkBytes_pos : 0 < netblkIoChunkBytes := by decide

section Payload
variable {smooth : Prop} {lo hi : Nat}

theorem offset_add {offset : UInt64} {chunk : Nat} (h : offset.toNat + chunk < 2 ^ 64) :
    (offset + .ofNat chunk).toNat = offset.toNat + chunk := by
  rw [UInt64.toNat_add, UInt64.toNat_ofNat', Nat.mod_eq_of_lt (show chunk < 2 ^ 64 by omega),
    Nat.mod_eq_of_lt h]

structure StoredPost (smooth : Prop) (lo hi step offset bytes : Nat) (s : Peer Image) (ok : Bool)
    (s' : Peer Image) : Prop where
  touches : Touches lo hi step s.host s'.host
  done : ok = true → bytes ≤ s.inp.length ∧ s'.inp = s.inp.drop bytes ∧
    s'.host.image = blit s.host.image offset (s.inp.take bytes)
  live : smooth → bytes ≤ s.inp.length → ok = true

theorem StoredPost.zero {step offset : Nat} (s : Peer Image) :
    StoredPost smooth lo hi step offset 0 s true s :=
  ⟨Touches.refl _, fun _ => ⟨Nat.zero_le _, rfl, by simp⟩, fun _ _ => rfl⟩

theorem StoredPost.failed {step offset bytes : Nat} {s s' : Peer Image}
    (htouch : Touches lo hi step s.host s'.host) (hno : ¬(smooth ∧ bytes ≤ s.inp.length)) :
    StoredPost smooth lo hi step offset bytes s false s' :=
  ⟨htouch, fun h => absurd h (by simp), fun hs hle => absurd ⟨hs, hle⟩ hno⟩

theorem StoredPost.chunk {step offset chunk bytes : Nat} {s s₁ s₂ : Peer Image} {ok : Bool}
    (hchunk : chunk ≤ bytes) (hlen : chunk ≤ s.inp.length) (hinp : s₁.inp = s.inp.drop chunk)
    (htouch : Touches lo hi step s.host s₁.host)
    (himg : s₁.host.image = blit s.host.image offset (s.inp.take chunk))
    (h : StoredPost smooth lo hi step (offset + chunk) (bytes - chunk) s₁ ok s₂) :
    StoredPost smooth lo hi step offset bytes s ok s₂ := by
  have hlength : s₁.inp.length = s.inp.length - chunk := by rw [hinp, List.length_drop]
  refine ⟨htouch.trans h.touches, fun hok => ?_, fun hs hle => h.live hs (by omega)⟩
  obtain ⟨hle, hinp', himg'⟩ := h.done hok
  refine ⟨by omega, ?_, ?_⟩
  · rw [hinp', hinp, List.drop_drop]
    congr 1
    omega
  · have hjoin := blit_append s.host.image offset (s.inp.take chunk)
      ((s.inp.drop chunk).take (bytes - chunk))
    rw [List.length_take_of_le hlen, ← List.take_add,
      show chunk + (bytes - chunk) = bytes by omega] at hjoin
    rw [himg', himg, hinp, hjoin]

theorem wp_recvImageWriteLoop (st : ServerState) {scratch : Nat} (hscratch : 0 < scratch)
    (fuel bytes : Nat) {offset : UInt64} {s : Peer Image} (hfuel : bytes ≤ fuel)
    (hlo : lo ≤ offset.toNat) (hhi : offset.toNat + bytes ≤ hi) (hsize : hi < 2 ^ 63) :
    wp (attached smooth) (recvImageWriteLoop st scratch fuel offset bytes)
      (StoredPost smooth lo hi scratch offset.toNat bytes s) s := by
  induction fuel generalizing bytes offset s with
  | zero =>
    obtain rfl : bytes = 0 := by omega
    exact StoredPost.zero s
  | succ fuel ih =>
    cases bytes with
    | zero => exact StoredPost.zero s
    | succ bytes =>
      unfold recvImageWriteLoop
      simp only
      generalize hchunk : min (bytes + 1) scratch = chunk
      rw [if_neg (by omega), wp_bind]
      apply wp_peer_recvAll netblkIoChunkBytes_pos
      · intro hno k
        exact StoredPost.failed (Touches.refl _) fun ⟨hs, hle⟩ => hno ⟨hs, by omega⟩
      · intro hlen
        have htake : (s.inp.take chunk).length = chunk := List.length_take_of_le hlen
        have hstep : (s.inp.take chunk).length ≤ scratch := by omega
        rw [wp_bind]
        apply wp_peer_offWire
        refine wp_mono (wp_writeImageExact st hlo (by omega) hsize hstep)
          fun ok img ⟨htouch, himg, hall⟩ => ?_
        cases ok with
        | false =>
          exact StoredPost.failed htouch fun ⟨hs, _⟩ => absurd (hall hs) (by simp)
        | true =>
          have hoff := @offset_add offset chunk (by omega)
          refine wp_mono (ih (bytes + 1 - chunk) (by omega) (by omega) (by omega)) fun ok s₂ hpost => ?_
          rw [hoff] at hpost
          exact StoredPost.chunk (by omega) hlen rfl htouch (himg rfl) hpost

theorem wp_recvDiscardLoop {scratch : Nat} (hscratch : 0 < scratch) (fuel bytes : Nat)
    {s : Peer Image} (hfuel : bytes ≤ fuel) :
    wp (attached smooth) (recvDiscardLoop scratch fuel bytes) (fun ok s' =>
      s'.host = s.host ∧ (ok = true → bytes ≤ s.inp.length ∧ s'.inp = s.inp.drop bytes)) s := by
  induction fuel generalizing bytes s with
  | zero =>
    obtain rfl : bytes = 0 := by omega
    exact ⟨rfl, fun _ => ⟨Nat.zero_le _, rfl⟩⟩
  | succ fuel ih =>
    cases bytes with
    | zero => exact ⟨rfl, fun _ => ⟨Nat.zero_le _, rfl⟩⟩
    | succ bytes =>
      unfold recvDiscardLoop
      simp only
      generalize hchunk : min (bytes + 1) scratch = chunk
      rw [if_neg (by omega), wp_bind]
      apply wp_peer_recvAll netblkIoChunkBytes_pos
      · intro _ k
        exact ⟨rfl, fun h => absurd h (by simp)⟩
      · intro hlen
        refine wp_mono (ih (bytes + 1 - chunk) (by omega)) fun ok s₁ ⟨hhost, hdone⟩ =>
          ⟨hhost, fun hok => ?_⟩
        obtain ⟨hle, hinp⟩ := hdone hok
        simp only [List.length_drop] at hle
        refine ⟨by omega, ?_⟩
        rw [hinp, List.drop_drop]
        congr 1
        omega

end Payload

/-- The operations whose payload the server reads. -/
def TakesPayload (h : NetBlockHeader) : Prop :=
  h.version = netblkVersion ∧
    h.op ∉ [netblkOpTime, netblkOpHello, netblkOpRead, netblkOpFlush]

instance (h : NetBlockHeader) : Decidable (TakesPayload h) := inferInstanceAs (Decidable (_ ∧ _))

/-- An access the request allows: inside its range, which is inside the image, and no longer than
the transfer buffer. -/
def Allowed (st : ServerState) (h : NetBlockHeader) (t : Nat × Nat) : Prop :=
  (h.op = netblkOpRead ∧ ReadAccepted st h ∨ h.op = netblkOpWrite ∧ WriteAccepted st h) ∧
    (h.lba.toNat * sectorSize ≤ t.1 ∧ t.1 + t.2 ≤ (h.lba.toNat + h.count.toNat) * sectorSize) ∧
    t.2 ≤ st.cfg.maxSectors * sectorSize

/-- Requests that cannot end the session as long as nothing fails. -/
def Continues (st : ServerState) (h : NetBlockHeader) (rest : List UInt8) : Prop :=
  ¬TakesPayload h ∧ ¬(h.version = netblkVersion ∧ h.op = netblkOpTime) ∨
    (h.op = netblkOpWrite ∧ WriteAccepted st h) ∧ h.bytes.toNat ≤ rest.length

structure RequestPost (smooth : Prop) (st : ServerState) (h : NetBlockHeader) (rest : List UInt8)
    (img : Image) (o : Outcome) (s : Peer Image) : Prop where
  confined : ∃ new, s.host.touched = new ++ img.touched ∧ ∀ t ∈ new, Allowed st h t
  outside : ∀ i, ¬(h.lba.toNat * sectorSize ≤ i ∧
    i < (h.lba.toNat + h.count.toNat) * sectorSize) → s.host.image i = img.image i
  unchanged : ¬(h.op = netblkOpWrite ∧ WriteAccepted st h) → s.host.image = img.image
  stored : h.version = netblkVersion → h.op = netblkOpWrite → WriteAccepted st h →
    ∀ wc, o = .again wc → s.host.image =
      blit img.image (h.lba.toNat * sectorSize) (rest.take (h.count.toNat * sectorSize))
  payload : ∀ wc, o = .again wc → TakesPayload h →
    h.bytes.toNat ≤ rest.length ∧ s.inp = rest.drop h.bytes.toNat
  header : ∀ wc, o = .again wc → ¬TakesPayload h → s.inp = rest
  continues : smooth → Continues st h rest → ∃ wc, o = .again wc

section Serve
variable {smooth : Prop} {st : ServerState} {h : NetBlockHeader} {rest : List UInt8} {img : Image}
  {wc : Nat}

/-- A request that leaves the image alone and takes its payload exactly if it should. -/
theorem RequestPost.quiet {o : Outcome} {s : Peer Image} (hhost : s.host = img)
    (hwrite : h.version = netblkVersion → h.op = netblkOpWrite → ¬WriteAccepted st h)
    (hpay : ∀ wc, o = .again wc → TakesPayload h →
      h.bytes.toNat ≤ rest.length ∧ s.inp = rest.drop h.bytes.toNat)
    (hhead : ∀ wc, o = .again wc → ¬TakesPayload h → s.inp = rest)
    (hlive : smooth → Continues st h rest → ∃ wc, o = .again wc) :
    RequestPost smooth st h rest img o s := by
  refine ⟨⟨[], ?_, by simp⟩, fun _ _ => ?_, fun _ => ?_, fun hv hop hacc => ?_, hpay, hhead, hlive⟩
  · rw [hhost]
    rfl
  · rw [hhost]
  · rw [hhost]
  · exact absurd hacc (hwrite hv hop)

theorem RequestPost.answered {o : Outcome} (hno : ¬TakesPayload h)
    (hlive : smooth → Continues st h rest → ∃ wc, o = .again wc) :
    RequestPost smooth st h rest img o ⟨rest, img⟩ := by
  refine RequestPost.quiet rfl (fun hv hop => ?_) (fun _ _ hyes => absurd hyes hno)
    (fun _ _ _ => rfl) hlive
  exact absurd ⟨hv, by rw [hop]; decide⟩ hno

/-- The answer to such a request goes out unless the stream fails. -/
theorem RequestPost.sent {ok : Bool} (hno : ¬TakesPayload h) (hok : smooth → ok = true) :
    RequestPost smooth st h rest img (if ok then .again wc else .stop (-1) wc) ⟨rest, img⟩ := by
  refine RequestPost.answered hno fun hs _ => ⟨wc, ?_⟩
  rw [hok hs, if_pos rfl]

theorem RequestPost.stopped {rc : Int} {s : Peer Image} (hhost : s.host = img)
    (hlive : smooth → ¬Continues st h rest) :
    RequestPost smooth st h rest img (.stop rc wc) s := by
  refine ⟨⟨[], ?_, by simp⟩, fun _ _ => ?_, fun _ => ?_, fun _ _ _ _ ho => absurd ho (by simp),
    fun _ ho => absurd ho (by simp), fun _ ho => absurd ho (by simp),
    fun hs hc => absurd hc (hlive hs)⟩
  · rw [hhost]
    rfl
  · rw [hhost]
  · rw [hhost]

theorem not_continues (hyes : TakesPayload h) (hno : ¬(h.op = netblkOpWrite ∧ WriteAccepted st h)) :
    ¬Continues st h rest := by
  rintro (⟨hn, _⟩ | ⟨hw, _⟩)
  · exact hn hyes
  · exact hno hw

theorem wp_sendHeader {Q : Bool → Peer Image → Prop} {s : Peer Image} {op : UInt16} {lba : UInt64}
    {count bytes status flags : UInt32} (h : ∀ ok, (smooth → ok = true) → Q ok s) :
    wp (attached smooth) (sendHeader op lba count bytes status flags) Q s :=
  wp_peer_sendAll netblkIoChunkBytes_pos _ h

theorem wp_serveTime (hv : h.version = netblkVersion) (hop : h.op = netblkOpTime) :
    wp (attached smooth) (serveTime wc) (RequestPost smooth st h rest img) ⟨rest, img⟩ := by
  have hno : ¬TakesPayload h := fun hyes => hyes.2 (by rw [hop]; decide)
  have hend : ¬Continues st h rest := by
    rintro (⟨_, hn⟩ | ⟨⟨hw, _⟩, _⟩)
    · exact hn ⟨hv, hop⟩
    · rw [hop] at hw
      exact absurd hw (by decide)
  unfold serveTime
  rw [wp_bind]
  apply wp_peer_offWire
  rintro t host ⟨rfl, _⟩
  rw [wp_ret]
  split
  · rw [wp_bind]
    exact wp_sendHeader fun _ _ => RequestPost.answered hno fun _ hc => absurd hc hend
  · rw [wp_bind]
    exact wp_sendHeader fun _ _ => RequestPost.answered hno fun _ hc => absurd hc hend

theorem wp_serveHello (hop : h.op = netblkOpHello) :
    wp (attached smooth) (serveHello st wc) (RequestPost smooth st h rest img) ⟨rest, img⟩ := by
  have hno : ¬TakesPayload h := fun hyes => hyes.2 (by rw [hop]; decide)
  unfold serveHello
  rw [wp_bind]
  exact wp_sendHeader fun _ hok => RequestPost.sent hno hok

theorem wp_serveRead (hop : h.op = netblkOpRead) :
    wp (attached smooth) (serveRead st h wc) (RequestPost smooth st h rest img) ⟨rest, img⟩ := by
  have hno : ¬TakesPayload h := fun hyes => hyes.2 (by rw [hop]; decide)
  unfold serveRead
  cases hrej : readRejected st h with
  | true =>
    rw [if_pos rfl, wp_bind]
    exact wp_sendHeader fun _ _ => RequestPost.answered hno fun _ _ => ⟨wc, rfl⟩
  | false =>
    have hacc := (readRejected_eq_false_iff st h).mp hrej
    have hmax := st.cfg.maxSectors_le
    obtain ⟨hoff, hneed, hsize⟩ := accepted_offsets hacc.2.2 (by have := hacc.2.1; omega)
    have hlt := st.imageBytes_lt
    rw [if_neg (by simp), wp_bind]
    apply wp_sendHeader
    intro ok hsent
    cases ok with
    | false => exact RequestPost.answered hno fun hs => absurd (hsent hs) (by simp)
    | true =>
      simp only [if_true]
      rw [wp_bind]
      have hend : (h.lba * 512).toNat + (h.count * 512).toNat ≤
          (h.lba.toNat + h.count.toNat) * sectorSize := by rw [hoff, hneed, ← Nat.add_mul]
      have hstep : (h.count * 512).toNat ≤ st.cfg.maxSectors * sectorSize := by
        rw [hneed]
        exact Nat.mul_le_mul_right _ hacc.2.1
      unfold sendImageExact
      rw [wp_bind]
      apply wp_peer_offWire
      refine wp_mono (wp_readImage st (Nat.le_of_eq hoff.symm) hend (by omega) hstep)
        fun r img' ⟨htouch, himg, hall⟩ => ?_
      have hpost : ∀ ok : Bool, (smooth → ok = true) → RequestPost smooth st h rest img
          (if ok then .again wc else .stop (-1) wc) ⟨rest, img'⟩ := by
        intro ok hok
        obtain ⟨new, hnew, hin⟩ := htouch.accesses
        refine ⟨⟨new, hnew, fun t ht => ⟨Or.inl ⟨hop, hacc⟩, hin t ht⟩⟩, htouch.outside,
          fun _ => himg, fun _ hw => ?_, fun _ _ hyes => absurd hyes hno, fun _ _ _ => rfl,
          fun hs _ => ⟨wc, ?_⟩⟩
        · rw [hop] at hw
          exact absurd hw (by decide)
        · rw [hok hs, if_pos rfl]
      cases r with
      | none => exact hpost false fun hs => absurd (hall hs) (by simp)
      | some data => exact wp_peer_sendAll netblkIoChunkBytes_pos _ hpost

theorem wp_serveWrite_rejected (hyes : TakesPayload h) (hrej : writeRejected st h = true) :
    wp (attached smooth) (serveWrite st h wc) (RequestPost smooth st h rest img) ⟨rest, img⟩ := by
  have hnot : ¬WriteAccepted st h := by
    rw [← writeRejected_eq_false_iff, hrej]
    simp
  have hend : ¬Continues st h rest := not_continues hyes fun hw => hnot hw.2
  unfold serveWrite
  rw [hrej, if_pos rfl]
  split
  · rw [wp_bind]
    refine wp_mono (wp_recvDiscardLoop (maxBytes_toNat st).2 _ _ (Nat.le_refl _))
      fun ok s ⟨hhost, hdone⟩ => ?_
    cases ok with
    | false => exact RequestPost.stopped hhost fun _ => hend
    | true =>
      simp only [if_true]
      rw [wp_bind]
      apply wp_sendHeader
      intro _ _
      exact RequestPost.quiet hhost (fun _ _ => hnot) (fun _ _ _ => hdone rfl)
        (fun _ _ hno => absurd hyes hno) fun _ hc => absurd hc hend
  · split
    · exact RequestPost.stopped rfl fun _ => hend
    · rename_i hz
      have hzero : h.bytes.toNat = 0 := by
        simp only [ne_eq, not_not] at hz
        rw [hz]
        rfl
      rw [wp_bind]
      apply wp_sendHeader
      intro _ _
      refine RequestPost.quiet rfl (fun _ _ => hnot) (fun _ _ _ => ?_)
        (fun _ _ hno => absurd hyes hno) fun _ hc => absurd hc hend
      rw [hzero]
      exact ⟨Nat.zero_le _, rfl⟩

theorem wp_serveWrite_accepted (hyes : TakesPayload h) (hop : h.op = netblkOpWrite)
    (hrej : writeRejected st h = false) :
    wp (attached smooth) (serveWrite st h wc) (RequestPost smooth st h rest img) ⟨rest, img⟩ := by
  obtain ⟨hbytesMax, hbuf⟩ := maxBytes_toNat st
  have hacc := (writeRejected_eq_false_iff st h).mp hrej
  have hbytes := hacc.2.2.2.1
  obtain ⟨hoff, hneed, hsize⟩ := accepted_offsets hacc.2.2.2.2 hacc.2.2.1
  have hlt := st.imageBytes_lt
  have hend : (h.lba * 512).toNat + (h.count * 512).toNat ≤
      (h.lba.toNat + h.count.toNat) * sectorSize := by rw [hoff, hneed, ← Nat.add_mul]
  unfold serveWrite
  rw [hrej, if_neg (by simp), wp_bind]
  unfold recvImageWrite
  refine wp_mono (wp_recvImageWriteLoop st hbuf _ _ (Nat.le_refl _) (Nat.le_of_eq hoff.symm) hend
    (by omega)) fun ok s hpost => ?_
  have htouch := hpost.touches
  rw [hbytesMax] at htouch
  obtain ⟨new, hnew, hrange⟩ := htouch.accesses
  have hallowed : ∀ t ∈ new, Allowed st h t := fun t ht => ⟨Or.inr ⟨hop, hacc⟩, hrange t ht⟩
  cases ok with
  | false =>
    simp only [Bool.false_eq_true, if_false]
    rw [wp_bind]
    apply wp_sendHeader
    intro _ _
    refine ⟨⟨new, hnew, hallowed⟩, htouch.outside, fun hn => absurd ⟨hop, hacc⟩ hn,
      fun _ _ _ _ ho => absurd ho (by simp), fun _ ho => absurd ho (by simp),
      fun _ ho => absurd ho (by simp), ?_⟩
    rintro hs (⟨hn, _⟩ | ⟨_, hle⟩)
    · exact absurd hyes hn
    · rw [hbytes, ← hneed] at hle
      exact absurd (hpost.live hs hle) (by simp)
  | true =>
    obtain ⟨hlen, hinp, himg⟩ := hpost.done rfl
    simp only [if_true]
    rw [wp_bind]
    apply wp_sendHeader
    intro ok hok
    refine ⟨⟨new, hnew, hallowed⟩, htouch.outside, fun hn => absurd ⟨hop, hacc⟩ hn,
      fun _ _ _ _ _ => ?_, fun _ _ _ => ?_, fun _ _ hno => absurd hyes hno,
      fun hs _ => ⟨wc + 1, ?_⟩⟩
    · rw [himg, hoff, hneed]
    · rw [hbytes, ← hneed]
      exact ⟨hlen, hinp⟩
    · rw [hok hs, if_pos rfl]

theorem wp_serveFlush (hop : h.op = netblkOpFlush) :
    wp (attached smooth) (serveFlush st wc) (RequestPost smooth st h rest img) ⟨rest, img⟩ := by
  have hno : ¬TakesPayload h := fun hyes => hyes.2 (by rw [hop]; decide)
  unfold serveFlush
  split
  · rw [wp_bind]
    apply wp_peer_offWire
    refine wp_mono (wp_flushImage st) fun ok img' ⟨himg, _⟩ => ?_
    subst himg
    rw [wp_bind]
    exact wp_sendHeader fun _ hok => RequestPost.sent hno hok
  · simp only [Prog.ret_bind]
    rw [wp_bind]
    exact wp_sendHeader fun _ hok => RequestPost.sent hno hok

theorem wp_servePayload {op : UInt16} {status : UInt32} (hyes : TakesPayload h)
    (hop : h.op ≠ netblkOpWrite) :
    wp (attached smooth) (servePayload st h op status wc) (RequestPost smooth st h rest img)
      ⟨rest, img⟩ := by
  have hend : ¬Continues st h rest := not_continues hyes fun hw => hop hw.1
  have hdone : ∀ s : Peer Image, s.host = img → h.bytes.toNat ≤ rest.length →
      s.inp = rest.drop h.bytes.toNat → ∀ o, RequestPost smooth st h rest img o s :=
    fun s hhost hlen hinp o => RequestPost.quiet hhost (fun _ hw => absurd hw hop)
      (fun _ _ _ => ⟨hlen, hinp⟩) (fun _ _ hno => absurd hyes hno) fun _ hc => absurd hc hend
  unfold servePayload
  split
  · exact RequestPost.stopped rfl fun _ => hend
  · split
    · rename_i hz
      simp only [Prog.ret_bind]
      rw [wp_bind]
      refine wp_sendHeader fun _ _ => hdone _ rfl ?_ ?_ _
      · rw [hz]
        exact Nat.zero_le _
      · rw [hz]
        rfl
    · rw [wp_bind]
      apply wp_peer_recvAll netblkIoChunkBytes_pos
      · intro _ k
        exact RequestPost.stopped rfl fun _ => hend
      · intro hlen
        simp only
        rw [wp_bind]
        exact wp_sendHeader fun _ _ => hdone _ rfl hlen rfl _

theorem wp_dispatch (hv : h.version = netblkVersion) :
    wp (attached smooth) (dispatch st h wc) (RequestPost smooth st h rest img) ⟨rest, img⟩ := by
  unfold dispatch
  by_cases htime : h.op = netblkOpTime
  · rw [if_pos htime]
    exact wp_serveTime hv htime
  rw [if_neg htime]
  by_cases hhello : h.op = netblkOpHello
  · rw [if_pos hhello]
    exact wp_serveHello hhello
  rw [if_neg hhello]
  by_cases hread : h.op = netblkOpRead
  · rw [if_pos hread]
    exact wp_serveRead hread
  rw [if_neg hread]
  have hyes : h.op ≠ netblkOpFlush → TakesPayload h :=
    fun hflush => ⟨hv, by simp [htime, hhello, hread, hflush]⟩
  by_cases hwrite : h.op = netblkOpWrite
  · rw [if_pos hwrite]
    have htakes := hyes (by rw [hwrite]; decide)
    cases hrej : writeRejected st h with
    | true => exact wp_serveWrite_rejected htakes hrej
    | false => exact wp_serveWrite_accepted htakes hwrite hrej
  rw [if_neg hwrite]
  by_cases hflush : h.op = netblkOpFlush
  · rw [if_pos hflush]
    exact wp_serveFlush hflush
  rw [if_neg hflush]
  split
  · exact wp_servePayload (hyes hflush) hwrite
  · exact wp_servePayload (hyes hflush) hwrite

/-- A whole header with the right magic number is on the stream. -/
def HasHeader (inp : List UInt8) : Prop :=
  NetBlockHeader.size ≤ inp.length ∧
    (NetBlockHeader.decode (inp.take NetBlockHeader.size)).magic = netblkMagic

instance (inp : List UInt8) : Decidable (HasHeader inp) := inferInstanceAs (Decidable (_ ∧ _))

theorem wp_serveRequest (st : ServerState) (wc : Nat) (inp : List UInt8) (img : Image) :
    wp (attached smooth) (serveRequest st wc)
      (RequestPost (smooth ∧ HasHeader inp) st (.decode (inp.take NetBlockHeader.size))
        (inp.drop NetBlockHeader.size) img) ⟨inp, img⟩ := by
  unfold serveRequest
  rw [wp_bind]
  apply wp_peer_recvAll netblkIoChunkBytes_pos
  · intro hdry k
    exact RequestPost.stopped rfl fun hs => absurd ⟨hs.1, hs.2.1⟩ hdry
  · intro _
    simp only
    split
    · rename_i hmagic
      exact RequestPost.stopped rfl fun hs => absurd hs.2.2 hmagic
    · split
      · rename_i hv
        rw [wp_bind]
        exact wp_sendHeader fun _ _ => RequestPost.answered (fun hyes => hv hyes.1)
          fun _ _ => ⟨wc, rfl⟩
      · rename_i hv
        refine wp_mono (wp_dispatch (by simpa using hv)) fun o s hpost => ?_
        exact { hpost with continues := fun hs => hpost.continues hs.1 }

end Serve

end Winspire.Server
