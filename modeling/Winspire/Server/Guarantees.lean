import Winspire.Server.Request

/-!
# What the server guarantees

Confinement of the image accesses, and the framing of the request stream.
-/

namespace Winspire.Server

open Interaction Netblk

set_option autoImplicit false

/-- Every access of a session was allowed by a request of it. -/
def Confined (st : ServerState) (img img' : Image) : Prop :=
  ∃ new, img'.touched = new ++ img.touched ∧ ∀ t ∈ new, ∃ h, Allowed st h t

theorem Confined.refl (st : ServerState) (img : Image) : Confined st img img := ⟨[], rfl, by simp⟩

theorem Confined.trans {st : ServerState} {img img' img'' : Image} (h : Confined st img img')
    (h' : Confined st img' img'') : Confined st img img'' := by
  obtain ⟨new, hnew, hin⟩ := h
  obtain ⟨new', hnew', hin'⟩ := h'
  refine ⟨new' ++ new, by rw [hnew', hnew, List.append_assoc], fun t ht => ?_⟩
  rcases List.mem_append.mp ht with ht | ht
  · exact hin' t ht
  · exact hin t ht

theorem wp_handleClient {smooth : Prop} (st : ServerState) (rounds wc : Nat) (s : Peer Image) :
    wp (attached smooth) (handleClient st rounds wc) (fun _ s' => Confined st s.host s'.host) s := by
  induction rounds generalizing wc s with
  | zero => exact Confined.refl st s.host
  | succ rounds ih =>
    unfold handleClient
    rw [wp_bind]
    refine wp_mono (wp_serveRequest st wc s.inp s.host) fun o s₁ hpost => ?_
    obtain ⟨new, hnew, hin⟩ := hpost.confined
    have hround : Confined st s.host s₁.host := ⟨new, hnew, fun t ht => ⟨_, hin t ht⟩⟩
    cases o with
    | again wc => exact wp_mono (ih wc s₁) fun _ s₂ hrest => hround.trans hrest
    | stop rc wc =>
      simp only
      split
      · rw [wp_bind]
        apply wp_peer_offWire
        refine wp_mono (wp_flushImage st) fun _ img' ⟨himg, _⟩ => ?_
        subst himg
        exact hround
      · exact hround

/-- The checks on wrapping fields are the checks over the integers, and what a request does
follows them, request by request and over a whole session. -/
theorem handleClient_confined (smooth : Prop) (st : ServerState) (wc : Nat) (inp : List UInt8)
    (img : Image) :
    (∀ h, readRejected st h = false ↔ ReadAccepted st h) ∧
    (∀ h, writeRejected st h = false ↔ WriteAccepted st h) ∧
    wp (attached smooth) (serveRequest st wc)
      (RequestPost (smooth ∧ HasHeader inp) st (.decode (inp.take NetBlockHeader.size))
        (inp.drop NetBlockHeader.size) img) ⟨inp, img⟩ ∧
    ∀ rounds, wp (attached smooth) (handleClient st rounds wc)
      (fun _ s => Confined st img s.host) ⟨inp, img⟩ :=
  ⟨readRejected_eq_false_iff st, writeRejected_eq_false_iff st, wp_serveRequest st wc inp img,
    fun rounds => wp_handleClient st rounds wc ⟨inp, img⟩⟩

/-- After a request that does not end the session, exactly its header and its payload are gone. -/
def Framed (st : ServerState) (wc : Nat) (inp : List UInt8) (img : Image) : Prop :=
  ∀ wc' s, Runs (attached False) (serveRequest st wc) ⟨inp, img⟩ (.again wc') s →
    let bytes := (NetBlockHeader.decode (inp.take NetBlockHeader.size)).bytes.toNat
    NetBlockHeader.size + bytes ≤ inp.length ∧ s.inp = inp.drop (NetBlockHeader.size + bytes)

def stoppedClock : Env hostSig Image := fun img op r img' =>
  match op, r with
  | .time, r => r = (-1 : Int) ∧ img' = img
  | op, r => imageHost True img op r img'

theorem stoppedClock_total (img : Image) (op : HostOp) : ∃ r img', stoppedClock img op r img' := by
  cases op with
  | time => exact ⟨(-1 : Int), img, rfl, rfl⟩
  | _ => exact @imageHost_total True img _

theorem stoppedClock_imageHost (img : Image) (op : HostOp) (r : hostSig.Answer op) (img' : Image)
    (h : stoppedClock img op r img') : imageHost False img op r img' := by
  cases op with
  | time => exact ⟨h.2, False.elim⟩
  | _ => exact @imageHost_mono True _ _ _ _ h

theorem wp_stoppedClock {st : ServerState} {wc : Nat} {inp : List UInt8} {img : Image}
    (hinp : HasHeader inp)
    (hv : (NetBlockHeader.decode (inp.take NetBlockHeader.size)).version = netblkVersion)
    (hop : (NetBlockHeader.decode (inp.take NetBlockHeader.size)).op = netblkOpTime) :
    wp (peer True stoppedClock) (serveRequest st wc) (fun o _ => ∃ wc', o = .again wc')
      ⟨inp, img⟩ := by
  unfold serveRequest
  rw [wp_bind]
  apply wp_peer_recvAll netblkIoChunkBytes_pos
  · exact fun hno => absurd ⟨trivial, hinp.1⟩ hno
  · intro _
    simp only
    rw [if_neg (not_not_intro hinp.2), if_neg (not_not_intro hv), dispatch, if_pos hop]
    unfold serveTime
    rw [wp_bind]
    apply wp_peer_offWire
    rintro t host ⟨rfl, _⟩
    simp only [wp_ret]
    rw [if_pos (by decide), wp_bind]
    exact wp_peer_sendAll netblkIoChunkBytes_pos _ fun _ _ => ⟨wc, rfl⟩

/-- A request whose payload is not read can leave the session open. -/
theorem exists_again {st : ServerState} {inp : List UInt8} (wc : Nat) (img : Image)
    (hinp : HasHeader inp)
    (hno : ¬TakesPayload (NetBlockHeader.decode (inp.take NetBlockHeader.size))) :
    ∃ wc' s, Runs (attached False) (serveRequest st wc) ⟨inp, img⟩ (.again wc') s := by
  by_cases htime : (NetBlockHeader.decode (inp.take NetBlockHeader.size)).version = netblkVersion ∧
      (NetBlockHeader.decode (inp.take NetBlockHeader.size)).op = netblkOpTime
  · obtain ⟨o, s, hrun⟩ := exists_runs (peer_total stoppedClock_total) (serveRequest st wc) ⟨inp, img⟩
    obtain ⟨wc', rfl⟩ := hrun.post (wp_stoppedClock hinp htime.1 htime.2)
    exact ⟨wc', s, hrun.env_mono (peer_mono stoppedClock_imageHost)⟩
  · obtain ⟨o, s, hrun⟩ := exists_runs (E := attached True) (peer_total imageHost_total)
      (serveRequest st wc) ⟨inp, img⟩
    obtain ⟨wc', rfl⟩ := (hrun.post (wp_serveRequest st wc inp img)).continues ⟨trivial, hinp⟩
      (Or.inl ⟨hno, htime⟩)
    exact ⟨wc', s, hrun.env_mono (peer_mono imageHost_mono)⟩

theorem framed_of_takesPayload {st : ServerState} {inp : List UInt8} (wc : Nat) (img : Image)
    (hlen : NetBlockHeader.size ≤ inp.length)
    (hyes : TakesPayload (NetBlockHeader.decode (inp.take NetBlockHeader.size))) :
    Framed st wc inp img := by
  intro wc' s hrun
  obtain ⟨hle, hs⟩ := (hrun.post (wp_serveRequest st wc inp img)).payload wc' rfl hyes
  rw [List.length_drop] at hle
  rw [List.drop_drop] at hs
  exact ⟨by omega, hs⟩

theorem unread_payload {st : ServerState} {inp : List UInt8} {wc wc' : Nat} {img : Image}
    {s : Peer Image}
    (hno : ¬TakesPayload (NetBlockHeader.decode (inp.take NetBlockHeader.size)))
    (hrun : Runs (attached False) (serveRequest st wc) ⟨inp, img⟩ (.again wc') s) :
    s.inp = inp.drop NetBlockHeader.size :=
  (hrun.post (wp_serveRequest st wc inp img)).header wc' rfl hno

/-- The framing is kept exactly for the operations that read their payload, and for requests
without one. -/
theorem serveRequest_framed_iff (st : ServerState) (wc : Nat) (inp : List UInt8) (img : Image)
    (hinp : HasHeader inp) :
    Framed st wc inp img ↔
      (NetBlockHeader.decode (inp.take NetBlockHeader.size)).bytes = 0 ∨
        TakesPayload (NetBlockHeader.decode (inp.take NetBlockHeader.size)) := by
  constructor
  · intro hframed
    by_contra hnot
    obtain ⟨hbytes, hno⟩ := not_or.mp hnot
    obtain ⟨wc', s, hrun⟩ := @exists_again st inp wc img hinp hno
    obtain ⟨hle, hs⟩ := hframed wc' s hrun
    have hpos : (NetBlockHeader.decode (inp.take NetBlockHeader.size)).bytes.toNat ≠ 0 :=
      fun hz => hbytes (UInt32.toNat_inj.mp hz)
    have hlength := congrArg List.length ((unread_payload hno hrun).symm.trans hs)
    rw [List.length_drop, List.length_drop] at hlength
    omega
  · rintro (hzero | hyes)
    · by_cases hyes : TakesPayload (NetBlockHeader.decode (inp.take NetBlockHeader.size))
      · exact framed_of_takesPayload wc img hinp.1 hyes
      · intro wc' s hrun
        simp only [hzero]
        exact ⟨hinp.1, unread_payload hyes hrun⟩
    · exact framed_of_takesPayload wc img hinp.1 hyes

def oneSectorServer : ServerState := ⟨defaultConfig, true, 512, by decide, by decide⟩

def blankImage : Image := { image := fun _ => 0 }

theorem serveRequest_framed_ping :
    HasHeader ((initHeader netblkOpPing 0 0 1 0 0).encode ++ [0]) ∧
      Framed oneSectorServer 0 ((initHeader netblkOpPing 0 0 1 0 0).encode ++ [0]) blankImage :=
  ⟨by decide +kernel, (serveRequest_framed_iff oneSectorServer 0 _ blankImage (by decide +kernel)).mpr
    (Or.inr (by decide +kernel))⟩

/-- A HELLO with one byte of payload: the byte stays where the next header is expected. -/
theorem serveRequest_unframed_hello :
    ¬∀ (st : ServerState) (wc : Nat) (inp : List UInt8) (img : Image), HasHeader inp →
      Framed st wc inp img := by
  intro hall
  have hinp : HasHeader ((initHeader netblkOpHello 0 0 1 0 0).encode ++ [0]) := by decide +kernel
  have hno : ¬TakesPayload (NetBlockHeader.decode
      (((initHeader netblkOpHello 0 0 1 0 0).encode ++ [0]).take NetBlockHeader.size)) := by
    decide +kernel
  obtain ⟨wc', s, hrun⟩ := @exists_again oneSectorServer _ 0 blankImage hinp hno
  have hs := (hall oneSectorServer 0 _ blankImage hinp wc' s hrun).2
  rw [unread_payload hno hrun] at hs
  revert hs
  decide +kernel

end Winspire.Server
