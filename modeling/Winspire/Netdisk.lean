import Winspire.Lib.Lockstep
import Winspire.Server.Exchange

/-!
# Client and server together

The client of ide.c and a connection of netblock_server.c as two parties over a byte stream.
The client initialises the device and then makes any calls; the server runs the rounds of
`handle_client` on a host that does not fail.
-/

namespace Winspire.Netdisk

open Interaction Netblk Server

set_option autoImplicit false

/-- The requests the client has begun and their results, latest first. -/
structure ClientLog where
  sent : List Request := []
  results : List Bool := []

def clientHost : Env localSig ClientLog := fun l op _ l' =>
  match op with
  | .begins q => l' = { l with sent := q :: l.sent }
  | .done ok => l' = { l with results := ok :: l.results }
  | .alloc | .netWaitUs => l' = l

inductive Client where
  | connected
  | ready (bn : BlockDeviceNet)
  | failed

def Client.job (settings : NetSettings) : Client → ClientProg Client → Prop
  | .connected, p => p = (blockDeviceInitNet settings).onWire >>= fun
      | none => .ret .failed
      | some bn => .ret (.ready bn)
  | .ready bn, p => ∃ call : NetCall, p = (call.run bn).onWire >>= fun r => .ret (.ready r.2)
  | .failed, _ => False

def parties (settings : NetSettings) (st : ServerState) :
    Parties localSig hostSig Client Outcome ClientLog Image where
  clientEnv := clientHost
  serverEnv := imageHost True
  job := Client.job settings
  round
    | .again wc => some (serveRequest st wc)
    | .stop _ _ => none

abbrev Connection := Duplex localSig hostSig Client Outcome ClientLog Image

def start (st : ServerState) (img : Image) : Connection where
  client := .ret .connected
  clientHost := {}
  server := serveRequest st 0
  serverHost := img

def Belongs (st : ServerState) (d : Disk) : Prop :=
  d.cfg = st.cfg ∧ d.sectorCount = st.imageBytes / sectorSize

def exchange (st : ServerState) : Exchange Disk Request where
  admits d q := Belongs st d ∧ d.admits q
  request := Request.bytes
  response d q := (d.reply q).bytes
  after := Disk.after
  response_ne d q := (d.reply q).bytes_ne_nil

def begins : LocalOp → Option Request
  | .begins q => some q
  | _ => none

def valid (st : ServerState) (_ : Disk) : LocalOp → Prop
  | .begins q => Passes st q.header
  | .done ok => ok = true
  | _ => True

def Idle (st : ServerState) (a : Client) (d : Disk) (_ : ClientLog) : Prop :=
  Belongs st d ∧ ∀ bn, a = .ready bn → Inv d bn

def Top (st : ServerState) (p : ServerProg Outcome) (img : Image) (d : Disk) : Prop :=
  (∃ wc, p = serveRequest st wc) ∧ st.disk img = d

structure Good (st : ServerState) (l : ClientLog) : Prop where
  sent : ∀ q ∈ l.sent, Passes st q.header
  results : ∀ ok ∈ l.results, ok = true

/-- Which requests a disk admits does not depend on its contents. -/
theorem Belongs.admits {st : ServerState} {d : Disk} (hb : Belongs st d) {q : Request}
    (h : d.admits q) (img : Image) : (st.disk img).admits q := by
  obtain ⟨hcfg, hcount⟩ := hb
  cases q with
  | read lba count =>
    obtain ⟨hpos, hmax, hin⟩ := h
    rw [hcfg] at hmax
    rw [hcount] at hin
    exact ⟨hpos, hmax, hin⟩
  | write site lba data =>
    obtain ⟨hro, hpos, hmax, hin⟩ := h
    rw [hcfg] at hro
    rw [hcount] at hin
    exact ⟨hro, hpos, hmax, hin⟩
  | hello _ => trivial
  | flush => trivial
  | ping _ _ => trivial

theorem Belongs.passes {st : ServerState} {d : Disk} (hb : Belongs st d) {q : Request}
    (h : d.admits q) : Passes st q.header := passes_of_admits (hb.admits h ⟨fun _ => 0, 0, []⟩)

theorem Belongs.after {st : ServerState} {d : Disk} (hb : Belongs st d) (q : Request) :
    Belongs st (d.after q) := by
  rw [Belongs, after_cfg, after_sectorCount]
  exact hb

section Jobs
variable {st : ServerState} {α : Type}

variable (st) in
/-- The script of a client that makes requests of the disk. -/
abbrev Calls (p : ClientProg α) (Q : α → Script (Disk × ClientLog) → Prop)
    (s : Script (Disk × ClientLog)) : Prop :=
  safe (inScript True (callOk (exchange st) begins (valid st)))
    (script (calling (exchange st) begins clientHost)) p Q s

theorem calls_bind {β : Type} (p : ClientProg α) (f : α → ClientProg β)
    (Q : β → Script (Disk × ClientLog) → Prop) (s : Script (Disk × ClientLog)) :
    Calls st (p >>= f) Q s ↔ Calls st p (fun a s' => Calls st (f a) Q s') s := safe_bind p f Q s

theorem calls_request {q : Request} {d : Disk} {h : ClientLog} (hb : Belongs st d)
    (hadm : d.admits q) {Q : Option Response → Script (Disk × ClientLog) → Prop}
    (hQ : ∀ h', Q (some (d.reply q)) ⟨[], [], (d.after q, h')⟩) :
    Calls st (dialog (.request q)) Q ⟨[], [], (d, h)⟩ := by
  unfold dialog
  rw [calls_bind]
  refine ⟨⟨hb.passes hadm, fun q' hq' => ?_⟩, ?_⟩
  · obtain rfl : q = q' := Option.some.inj hq'
    exact ⟨⟨hb, hadm⟩, rfl, rfl⟩
  · rintro _ ⟨inp, out, d', h'⟩ ⟨_, rfl, rfl, rfl⟩
    change Calls st (q.send >>= fun r => offWire (Prog.perform (S := localSig) (.done r.isSome)) >>=
      fun _ => .ret r) Q _
    rw [calls_bind]
    refine safe_send hadm rfl rfl ?_
    rw [calls_bind]
    refine ⟨⟨rfl, fun q' hq' => absurd hq' (by simp [begins])⟩, ?_⟩
    rintro _ ⟨inp, out, d', h''⟩ ⟨_, rfl, rfl, rfl⟩
    exact hQ h''

/-- A program whose requests are admitted keeps to the script, and ends as on the faultless
link. -/
theorem calls_onWire {p : NetProg α} {Q : α → Link → Prop} {l : Link} {h : ClientLog}
    (hb : Belongs st l.disk) (hs : safe admitted faultless p Q l) :
    Calls st p.onWire (fun a s => s.inp = [] ∧ s.out = [] ∧ Belongs st s.host.1 ∧
      ∃ log, Q a ⟨s.host.1, log⟩) ⟨[], [], (l.disk, h)⟩ := by
  induction p generalizing l h with
  | ret a => exact ⟨rfl, rfl, hb, l.log, hs⟩
  | ask op k ih =>
    obtain ⟨hadm, hk⟩ := hs
    unfold NetProg.onWire
    rw [Prog.translate_ask, calls_bind]
    cases op with
    | request q =>
      refine calls_request hb hadm fun h' => ?_
      exact ih _ (l := ⟨l.disk.after q, (q, true) :: l.log⟩) (hb.after q)
        (hk _ _ (Or.inl ⟨hadm, rfl, rfl⟩))
    | alloc =>
      refine ⟨⟨trivial, fun q hq => absurd hq (by simp [begins])⟩, ?_⟩
      rintro r ⟨inp, out, d, h'⟩ ⟨_, rfl, rfl, rfl⟩
      exact ih r hb (hk r l rfl)
    | netWaitUs =>
      refine ⟨⟨trivial, fun q hq => absurd hq (by simp [begins])⟩, ?_⟩
      rintro r ⟨inp, out, d, h'⟩ ⟨_, rfl, rfl, rfl⟩
      exact ih r hb (hk r l rfl)

theorem calls_job {settings : NetSettings} {a : Client} {p : ClientProg Client} {d : Disk}
    {h : ClientLog} (hidle : Idle st a d h) (hjob : Client.job settings a p) :
    Calls st p (fun a s => s.inp = [] ∧ s.out = [] ∧ Idle st a s.host.1 s.host.2)
      ⟨[], [], (d, h)⟩ := by
  obtain ⟨hb, hinv⟩ := hidle
  cases a with
  | connected =>
    obtain rfl := hjob
    have hwp := @wp_blockDeviceInitNet (fun _ => False) settings ⟨d, []⟩
    have hsafe := safe_admitted (Q := fun r l' => l'.disk = d ∧
        (r = none ∨ r = some (helloDevice settings d))) ⟨[], rfl⟩
      (wp_mono hwp fun r l' hpost => ⟨⟨hpost.1, hpost.2.2⟩, hpost.2.1⟩)
    rw [calls_bind]
    refine safe_mono (calls_onWire hb hsafe) fun r s ⟨hinp, hout, hb', log, hdisk, hr⟩ => ?_
    simp only at hdisk
    rcases hr with rfl | rfl
    · exact ⟨hinp, hout, hb', fun bn hbn => absurd hbn (by simp)⟩
    · refine ⟨hinp, hout, hb', fun bn hbn => ?_⟩
      obtain rfl := Client.ready.inj hbn
      rw [hdisk]
      exact (helloDevice_fresh settings d).toInv
  | ready bn =>
    obtain ⟨call, rfl⟩ := hjob
    have hwp := @wp_call (fun _ => False) bn ⟨d, []⟩ (hinv bn rfl) call
    have hsafe := safe_admitted (Q := fun r l' => Inv l'.disk r.2) ⟨[], rfl⟩
      (wp_mono hwp fun r l' hpost => ⟨hpost.inv, hpost.ext⟩)
    rw [calls_bind]
    refine safe_mono (calls_onWire hb hsafe) fun r s ⟨hinp, hout, hb', log, hr⟩ => ?_
    refine ⟨hinp, hout, hb', fun bn' hbn => ?_⟩
    obtain rfl := Client.ready.inj hbn
    exact hr
  | failed => exact absurd hjob id

end Jobs

theorem serveRequest_waits (st : ServerState) (wc : Nat) :
    ∃ limit k, serveRequest st wc = .ask (.recv limit) k := ⟨_, _, rfl⟩

theorem agreement (settings : NetSettings) (st : ServerState) :
    Agreement (parties settings st) (exchange st) begins (valid st) (Idle st) (Top st) (Good st) where
  job_ok := calls_job
  serve_ok := by
    rintro p img d q ⟨⟨wc, rfl⟩, rfl⟩ ⟨_, hadm⟩
    refine safe_mono (serves_serveRequest hadm) fun o s ⟨hinp, hout, ⟨wc', ho⟩, hdisk⟩ => ?_
    subst ho
    exact ⟨hinp, hout, _, rfl, ⟨wc', rfl⟩, hdisk⟩
  top_waits := by
    rintro p img d ⟨⟨wc, rfl⟩, _⟩
    exact serveRequest_waits st wc
  good_step := by
    intro d h op r h' hgood hvalid hstep
    cases op with
    | begins q =>
      obtain rfl := hstep
      exact ⟨List.forall_mem_cons.mpr ⟨hvalid, hgood.sent⟩, hgood.results⟩
    | done ok =>
      obtain rfl := hstep
      exact ⟨hgood.sent, List.forall_mem_cons.mpr ⟨hvalid, hgood.results⟩⟩
    | alloc =>
      obtain rfl := hstep
      exact hgood
    | netWaitUs =>
      obtain rfl := hstep
      exact hgood
  client_total := by
    intro h op
    cases op with
    | begins q => exact ⟨(), _, rfl⟩
    | done ok => exact ⟨(), _, rfl⟩
    | alloc => exact ⟨true, h, rfl⟩
    | netWaitUs => exact ⟨(0 : UInt64), h, rfl⟩
  server_total := fun img op => imageHost_total img op

/-- A call is over, or its next request is about to begin. -/
def BetweenRequests (c : Connection) : Prop :=
  (∃ a, c.client = .ret a) ∨ ∃ q k, c.client = .ask (.loc (.begins q)) k

/-- Whatever the client calls and however the streams cut the data: every request passes the
checks of the server, every response passes those of the client, nothing is left on either stream
between requests, and the two never wait for each other. -/
theorem client_server_lockstep (settings : NetSettings) (st : ServerState) (img : Image)
    (c : Connection) (hr : Duplex.Reachable (parties settings st) (start st img) c) :
    (∀ q ∈ c.clientHost.sent, Passes st q.header) ∧
    (∀ ok ∈ c.clientHost.results, ok = true) ∧
    (BetweenRequests c → c.toServer = [] ∧ c.toClient = []) ∧
    ((¬∃ a, c.client = .ret a) → ∃ c', Duplex.Step (parties settings st) c c') := by
  have hidle : Idle st .connected (st.disk img) {} :=
    ⟨⟨rfl, rfl⟩, fun bn hbn => absurd hbn (by simp)⟩
  obtain ⟨cin, cout, sinp, sout, d, ht⟩ := Duplex.Reachable.together (agreement settings st) hidle
    ⟨⟨0, rfl⟩, rfl⟩ ⟨by simp, by simp⟩ hr
  refine ⟨ht.good.sent, ht.good.results, fun hquiet => ht.quiet ?_, ht.progress (agreement settings st)⟩
  rcases hquiet with hret | ⟨q, k, hq⟩
  · exact Or.inl hret
  · exact Or.inr ⟨_, k, hq, rfl⟩

def smallServer : ServerState := ⟨{ maxSectors := 1 }, false, 4096, by decide, by decide⟩

def zeroImage : Image := { image := fun _ => 0 }

theorem reachable_allocAll {init c : Connection} {settings : NetSettings} {st : ServerState}
    {k : Bool → NetProg (Option BlockDeviceNet)} {f : Option BlockDeviceNet → ClientProg Client}
    (n : Nat) (hr : Duplex.Reachable (parties settings st) init c)
    (hc : c.client = (allocAll n >>= k).onWire >>= f) :
    Duplex.Reachable (parties settings st) init { c with client := (k true).onWire >>= f } := by
  induction n generalizing c with
  | zero =>
    obtain ⟨client, _, _, _, _, _⟩ := c
    obtain rfl : client = _ := hc
    exact hr
  | succ n ih =>
    have halloc := hr.client_loc .alloc (hc.trans rfl) (r := true) rfl
    have hrest := ih halloc rfl
    exact hrest

/-- The client has started `block_device_init_net`. -/
def connecting : Connection := { start smallServer zeroImage with
  client := (blockDeviceInitNet {}).onWire >>= fun
    | none => .ret .failed
    | some bn => .ret (.ready bn) }

/-- The HELLO goes out in two pieces and its answer comes back in two; after it the client is
about to begin the ping of `block_device_init_net`. -/
theorem helloed : ∃ c, Duplex.Reachable (parties {} smallServer) (start smallServer zeroImage) c ∧
    c.clientHost.sent = [.hello 0] ∧ c.clientHost.results = [true] ∧
    ∃ q k, c.client = .ask (.loc (.begins q)) k := by
  have hstart : Duplex.Reachable (parties {} smallServer) (start smallServer zeroImage) connecting :=
    .step .init (.job rfl rfl)
  have halloc := reachable_allocAll (2 + netblkReadCacheWindows + 1) hstart rfl
  have hbegins := halloc.client_loc (.begins (.hello 0)) rfl (r := ()) rfl
  have hsent := hbegins.client_send rfl (j := 5) (by decide) (by decide)
  have hgot := hsent.server_recv rfl (j := 5) (by decide) (by decide) (by decide)
  have hsent' := hgot.client_send rfl (j := 27) (by decide) (by decide)
  have hgot' := hsent'.server_recv rfl (j := 27) (by decide) (by decide) (by decide)
  have hreply := hgot'.server_send rfl (j := 32) (by decide) (by decide)
  have hanswer := hreply.client_recv rfl (j := 20) (by decide) (by decide) (by decide)
  have hanswer' := hanswer.client_recv rfl (j := 12) (by decide) (by decide) (by decide)
  have hdone := hanswer'.client_loc (.done true) rfl (r := ()) rfl
  have hwait := hdone.client_loc .netWaitUs rfl (r := (0 : UInt64)) rfl
  exact ⟨_, hwait, rfl, rfl, _, _, rfl⟩

theorem client_server_lockstep_connecting :
    ∃ c, Duplex.Reachable (parties {} smallServer) (start smallServer zeroImage) c ∧
      c.clientHost.sent = [.hello 0] ∧ c.clientHost.results = [true] ∧
      Passes smallServer (Request.hello 0).header ∧ c.toServer = [] ∧ c.toClient = [] ∧
      ∃ c', Duplex.Step (parties {} smallServer) c c' := by
  obtain ⟨c, hr, hsent, hresults, q, k, hclient⟩ := helloed
  obtain ⟨hpass, -, hquiet, hnext⟩ := client_server_lockstep {} smallServer zeroImage c hr
  obtain ⟨hup, hdown⟩ := hquiet (Or.inr ⟨q, k, hclient⟩)
  refine ⟨c, hr, hsent, hresults, hpass _ (by simp [hsent]), hup, hdown, hnext ?_⟩
  rintro ⟨a, ha⟩
  cases hclient.symm.trans ha

end Winspire.Netdisk
