import Winspire.Lib.Wire

/-!
# Two programs joined by a stream in each direction

The client runs one job after another, the server one round after another, and either may act
at any time. An `Exchange` gives the bytes of each request and of its response. If the client
keeps to the requests in some order and each round of the server serves one of them, the two
stay together: the streams are empty whenever no request is under way, and nobody waits for
ever.
-/

namespace Winspire.Interaction

set_option autoImplicit false

variable {C S : Signature} {α β σ τ D R : Type}

/-- One operation of a party: the next program, its state, what is left of the incoming stream
and what is sent. -/
inductive Acts (H : Env S σ) :
    Prog (wire S) α → σ → List UInt8 → Prog (wire S) α → σ → List UInt8 → List UInt8 → Prop where
  | send {chunk : List UInt8} {k : Option Nat → Prog (wire S) α} {host : σ} {queue : List UInt8}
      {j : Nat} : 1 ≤ j → j ≤ chunk.length →
      Acts H (.ask (.send chunk) k) host queue (k (some j)) host queue (chunk.take j)
  | recv {limit : Nat} {k : Option (List UInt8) → Prog (wire S) α} {host : σ} {queue : List UInt8}
      {j : Nat} : 1 ≤ j → j ≤ limit → j ≤ queue.length →
      Acts H (.ask (.recv limit) k) host queue (k (some (queue.take j))) host (queue.drop j) []
  | loc {op : S.Op} {k : S.Answer op → Prog (wire S) α} {host host' : σ} {queue : List UInt8}
      {r : S.Answer op} : H host op r host' →
      Acts H (.ask (.loc op) k) host queue (k r) host' queue []

structure Duplex (C S : Signature) (α β σ τ : Type) where
  client : Prog (wire C) α
  clientHost : σ
  server : Prog (wire S) β
  serverHost : τ
  toServer : List UInt8 := []
  toClient : List UInt8 := []

/-- `job a p` says that the client may run `p` next when it has returned `a`. -/
structure Parties (C S : Signature) (α β σ τ : Type) where
  clientEnv : Env C σ
  serverEnv : Env S τ
  job : α → Prog (wire C) α → Prop
  round : β → Option (Prog (wire S) β)

namespace Duplex

inductive Step (P : Parties C S α β σ τ) (c : Duplex C S α β σ τ) : Duplex C S α β σ τ → Prop where
  | client {p : Prog (wire C) α} {host : σ} {queue sent : List UInt8} :
      Acts P.clientEnv c.client c.clientHost c.toClient p host queue sent →
      Step P c { c with
        client := p
        clientHost := host
        toClient := queue
        toServer := c.toServer ++ sent }
  | server {p : Prog (wire S) β} {host : τ} {queue sent : List UInt8} :
      Acts P.serverEnv c.server c.serverHost c.toServer p host queue sent →
      Step P c { c with
        server := p
        serverHost := host
        toServer := queue
        toClient := c.toClient ++ sent }
  | job {a : α} {p : Prog (wire C) α} : c.client = .ret a → P.job a p → Step P c { c with client := p }
  | round {b : β} {p : Prog (wire S) β} : c.server = .ret b → P.round b = some p →
      Step P c { c with server := p }

inductive Reachable (P : Parties C S α β σ τ) (init : Duplex C S α β σ τ) :
    Duplex C S α β σ τ → Prop where
  | init : Reachable P init init
  | step {c c' : Duplex C S α β σ τ} : Reachable P init c → Step P c c' → Reachable P init c'

section Moves
variable {P : Parties C S α β σ τ} {init c : Duplex C S α β σ τ} {j : Nat}

theorem Reachable.client_loc (hr : Reachable P init c) (op : C.Op)
    {k : C.Answer op → Prog (wire C) α} (hc : c.client = .ask (.loc op) k) {r : C.Answer op}
    {host : σ} (hop : P.clientEnv c.clientHost op r host) :
    Reachable P init { c with client := k r, clientHost := host } := by
  obtain ⟨client, _, _, _, _, _⟩ := c
  obtain rfl : client = _ := hc
  simpa using hr.step (.client (.loc hop))

theorem Reachable.client_send (hr : Reachable P init c) {chunk : List UInt8}
    {k : Option Nat → Prog (wire C) α} (hc : c.client = .ask (.send chunk) k) (hpos : 1 ≤ j)
    (hj : j ≤ chunk.length) :
    Reachable P init
      { c with client := k (some j), toServer := c.toServer ++ chunk.take j } := by
  obtain ⟨client, _, _, _, _, _⟩ := c
  obtain rfl : client = _ := hc
  exact hr.step (.client (.send hpos hj))

theorem Reachable.client_recv (hr : Reachable P init c) {limit : Nat}
    {k : Option (List UInt8) → Prog (wire C) α} (hc : c.client = .ask (.recv limit) k)
    (hpos : 1 ≤ j) (hj : j ≤ limit) (hq : j ≤ c.toClient.length) :
    Reachable P init
      { c with client := k (some (c.toClient.take j)), toClient := c.toClient.drop j } := by
  obtain ⟨client, _, _, _, _, _⟩ := c
  obtain rfl : client = _ := hc
  simpa using hr.step (.client (.recv hpos hj hq))

theorem Reachable.server_send (hr : Reachable P init c) {chunk : List UInt8}
    {k : Option Nat → Prog (wire S) β} (hc : c.server = .ask (.send chunk) k) (hpos : 1 ≤ j)
    (hj : j ≤ chunk.length) :
    Reachable P init
      { c with server := k (some j), toClient := c.toClient ++ chunk.take j } := by
  obtain ⟨_, _, server, _, _, _⟩ := c
  obtain rfl : server = _ := hc
  exact hr.step (.server (.send hpos hj))

theorem Reachable.server_recv (hr : Reachable P init c) {limit : Nat}
    {k : Option (List UInt8) → Prog (wire S) β} (hc : c.server = .ask (.recv limit) k)
    (hpos : 1 ≤ j) (hj : j ≤ limit) (hq : j ≤ c.toServer.length) :
    Reachable P init
      { c with server := k (some (c.toServer.take j)), toServer := c.toServer.drop j } := by
  obtain ⟨_, _, server, _, _, _⟩ := c
  obtain rfl : server = _ := hc
  simpa using hr.step (.server (.recv hpos hj hq))

end Moves

end Duplex

structure Exchange (D R : Type) where
  admits : D → R → Prop
  request : R → List UInt8
  response : D → R → List UInt8
  after : D → R → D
  response_ne : ∀ d q, response d q ≠ []

section Calling
variable (X : Exchange D R) (begins : C.Op → Option R) (valid : D → C.Op → Prop)

/-- The operations of the client. One that begins a request loads its script. -/
def calling (H : Env C σ) : Env C (Script (D × σ)) := fun s op r s' =>
  H s.host.2 op r s'.host.2 ∧
    match begins op with
    | none => s'.inp = s.inp ∧ s'.out = s.out ∧ s'.host.1 = s.host.1
    | some q => s'.inp = X.response s.host.1 q ∧ s'.out = X.request q ∧
        s'.host.1 = X.after s.host.1 q

/-- A request is begun when the one before is over, and is one the server admits. -/
def callOk (s : Script (D × σ)) (op : C.Op) : Prop :=
  valid s.host.1 op ∧ ∀ q, begins op = some q → X.admits s.host.1 q ∧ s.inp = [] ∧ s.out = []

end Calling

structure Agreement (P : Parties C S α β σ τ) (X : Exchange D R) (begins : C.Op → Option R)
    (valid : D → C.Op → Prop) (Idle : α → D → σ → Prop) (Top : Prog (wire S) β → τ → D → Prop)
    (Good : σ → Prop) : Prop where
  job_ok : ∀ {a p d h}, Idle a d h → P.job a p →
    safe (inScript True (callOk X begins valid)) (script (calling X begins P.clientEnv)) p
      (fun a s => s.inp = [] ∧ s.out = [] ∧ Idle a s.host.1 s.host.2) ⟨[], [], (d, h)⟩
  serve_ok : ∀ {p h d q}, Top p h d → X.admits d q →
    safe (inScript False fun _ _ => True) (script (hosted P.serverEnv)) p
      (fun b s => s.inp = [] ∧ s.out = [] ∧ ∃ p', P.round b = some p' ∧ Top p' s.host (X.after d q))
      ⟨X.request q, X.response d q, h⟩
  top_waits : ∀ {p h d}, Top p h d → ∃ limit k, p = .ask (.recv limit) k
  good_step : ∀ {d h op r h'}, Good h → valid d op → P.clientEnv h op r h' → Good h'
  client_total : ∀ h op, ∃ r h', P.clientEnv h op r h'
  server_total : ∀ h op, ∃ r h', P.serverEnv h op r h'

section Invariant
variable {P : Parties C S α β σ τ} {X : Exchange D R} {begins : C.Op → Option R}
  {valid : D → C.Op → Prop} {Idle : α → D → σ → Prop} {Top : Prog (wire S) β → τ → D → Prop}
  {Good : σ → Prop}

variable (P Top) in
/-- The server can finish what is left of its script, and is then ready for the next request. -/
def Serving (p : Prog (wire S) β) (inp out : List UInt8) (h : τ) (d : D) : Prop :=
  safe (inScript False fun _ _ => True) (script (hosted P.serverEnv)) p
    (fun b s => s.inp = [] ∧ s.out = [] ∧ ∃ p', P.round b = some p' ∧ Top p' s.host d) ⟨inp, out, h⟩

variable (P X Top) in
/-- Where the server is: in the middle of a request, not yet done with the last one when the next
one has begun, or waiting. The disk `d` is the one after all requests begun so far. -/
inductive ServerAt (p : Prog (wire S) β) (inp out : List UInt8) (h : τ) (d : D) : Prop where
  | busy : Serving P Top p inp out h d → (out = [] → inp = []) → ServerAt p inp out h d
  | late (d₀ : D) (q : R) : Serving P Top p [] [] h d₀ → X.admits d₀ q → inp = X.request q →
      out = X.response d₀ q → d = X.after d₀ q → ServerAt p inp out h d
  | waiting : Top p h d → inp = [] → out = [] → ServerAt p inp out h d

variable (P X begins valid Idle Top Good) in
/-- What is under way on a stream and what its sender has still to send is what its reader has
still to receive. -/
structure Together (c : Duplex C S α β σ τ) (cin cout sinp sout : List UInt8) (d : D) : Prop where
  client : safe (inScript True (callOk X begins valid)) (script (calling X begins P.clientEnv)) c.client
    (fun a s => s.inp = [] ∧ s.out = [] ∧ Idle a s.host.1 s.host.2) ⟨cin, cout, (d, c.clientHost)⟩
  server : ServerAt P X Top c.server sinp sout c.serverHost d
  up : sinp = c.toServer ++ cout
  down : cin = c.toClient ++ sout
  good : Good c.clientHost

theorem ServerAt.drained {p : Prog (wire S) β} {inp out : List UInt8} {h : τ} {d : D}
    (hs : ServerAt P X Top p inp out h d) (hout : out = []) : inp = [] := by
  cases hs with
  | busy _ hdrained => exact hdrained hout
  | late d₀ q _ _ _ hresp _ => exact absurd (hresp.symm.trans hout) (X.response_ne d₀ q)
  | waiting _ hinp _ => exact hinp

theorem ServerAt.begin (A : Agreement P X begins valid Idle Top Good) {p : Prog (wire S) β} {h : τ}
    {d : D} {q : R} (hs : ServerAt P X Top p [] [] h d) (hadm : X.admits d q) :
    ServerAt P X Top p (X.request q) (X.response d q) h (X.after d q) := by
  cases hs with
  | busy hserve _ => exact .late d q hserve hadm rfl rfl rfl
  | late d₀ q₀ _ _ _ hresp _ => exact absurd hresp.symm (X.response_ne d₀ q₀)
  | waiting htop _ _ =>
    exact .busy (A.serve_ok htop hadm) fun hnil => absurd hnil (X.response_ne d q)

theorem ServerAt.round (A : Agreement P X begins valid Idle Top Good) {b : β}
    {p : Prog (wire S) β} {inp out : List UInt8} {h : τ} {d : D}
    (hs : ServerAt P X Top (.ret b) inp out h d) (hround : P.round b = some p) :
    ServerAt P X Top p inp out h d := by
  cases hs with
  | busy hserve _ =>
    obtain ⟨hinp, hout, p', hp', htop⟩ := hserve
    obtain rfl : p' = p := Option.some.inj (hp'.symm.trans hround)
    exact .waiting htop hinp hout
  | late d₀ q hserve hadm hinp hout hd =>
    obtain ⟨_, _, p', hp', htop⟩ := hserve
    obtain rfl : p' = p := Option.some.inj (hp'.symm.trans hround)
    subst hinp hout hd
    exact .busy (A.serve_ok htop hadm) fun hnil => absurd hnil (X.response_ne d₀ q)
  | waiting htop _ _ =>
    obtain ⟨limit, k, hp⟩ := A.top_waits htop
    cases hp

theorem Serving.acts {p p' : Prog (wire S) β} {inp out queue queue' sent later : List UInt8}
    {h h' : τ} {d : D} (hs : Serving P Top p inp out h d) (hinp : inp = queue ++ later)
    (hact : Acts P.serverEnv p h queue p' h' queue' sent) :
    ∃ out', Serving P Top p' (queue' ++ later) out' h' d ∧ out = sent ++ out' ∧
      (sent ≠ [] → inp = []) ∧ (queue' ≠ queue → inp ≠ []) := by
  cases hact with
  | @send chunk k _ _ j hj hle =>
    obtain ⟨⟨_, ⟨rest, hout⟩, hturn⟩, hk⟩ := hs
    refine ⟨out.drop j, ?_, ?_, fun _ => hturn (by simp), fun h => absurd rfl h⟩
    · rw [← hinp]
      exact hk _ _ ⟨_, hj, hle, rfl, rfl⟩
    · simp only at hout
      rw [← hout, List.drop_append_of_le_length hle, ← List.append_assoc, List.take_append_drop]
  | recv hj hlim hle =>
    obtain ⟨_, hk⟩ := hs
    refine ⟨out, ?_, rfl, fun h => absurd rfl h, fun _ hnil => ?_⟩
    · have hnext := hk _ _ ⟨_, hj, hlim, by rw [hinp, List.length_append]; omega, rfl, rfl⟩
      simp only [hinp, List.take_append_of_le_length hle, List.drop_append_of_le_length hle] at hnext
      exact hnext
    · rw [hinp] at hnil
      rw [(List.append_eq_nil_iff.mp hnil).1] at hle
      simp at hle
      omega
  | loc hr =>
    refine ⟨out, ?_, rfl, fun h => absurd rfl h, fun h => absurd rfl h⟩
    rw [← hinp]
    exact hs.2 _ _ ⟨hr, rfl, rfl⟩

theorem ServerAt.acts (A : Agreement P X begins valid Idle Top Good) {p p' : Prog (wire S) β}
    {inp out queue queue' sent later : List UInt8} {h h' : τ} {d : D}
    (hs : ServerAt P X Top p inp out h d) (hinp : inp = queue ++ later)
    (hact : Acts P.serverEnv p h queue p' h' queue' sent) :
    ∃ out', ServerAt P X Top p' (queue' ++ later) out' h' d ∧ out = sent ++ out' := by
  cases hs with
  | busy hserve hdrained =>
    obtain ⟨out', hserve', hout, hsent, hmoved⟩ := hserve.acts hinp hact
    refine ⟨out', .busy hserve' fun hnil => ?_, hout⟩
    have hempty : inp = [] := by
      by_cases hq : sent = []
      · exact hdrained (by rw [hout, hq, hnil]; rfl)
      · exact hsent hq
    have hsame : queue' = queue := by
      by_contra hne
      exact hmoved hne hempty
    rw [hsame, ← hinp, hempty]
  | late d₀ q hserve hadm hreq hresp hd =>
    -- the last request is over, so the streams are not touched
    cases hact with
    | send hj hle =>
      obtain ⟨⟨hne, hpre, _⟩, _⟩ := hserve
      exact absurd (List.prefix_nil.mp hpre) hne
    | recv hj hlim hle =>
      obtain ⟨⟨hpos, hlen, _⟩, _⟩ := hserve
      simp at hlen
      omega
    | loc hr => exact ⟨out, .late d₀ q (hserve.2 _ _ ⟨hr, rfl, rfl⟩) hadm (hinp.symm.trans hreq) hresp hd,
        rfl⟩
  | waiting htop hnil hout =>
    obtain ⟨limit, k, rfl⟩ := A.top_waits htop
    rw [hinp] at hnil
    cases hact with
    | recv hj hlim hle =>
      rw [(List.append_eq_nil_iff.mp hnil).1] at hle
      simp at hle
      omega

theorem Together.client_acts (A : Agreement P X begins valid Idle Top Good)
    {c : Duplex C S α β σ τ} {cin cout sinp sout : List UInt8} {d : D}
    (ht : Together P X begins valid Idle Top Good c cin cout sinp sout d) {p : Prog (wire C) α}
    {host : σ} {queue sent : List UInt8}
    (hact : Acts P.clientEnv c.client c.clientHost c.toClient p host queue sent) :
    ∃ cin cout sinp sout d, Together P X begins valid Idle Top Good
      { c with client := p, clientHost := host, toClient := queue, toServer := c.toServer ++ sent }
      cin cout sinp sout d := by
  obtain ⟨client, clientHost, server, serverHost, toServer, toClient⟩ := c
  obtain ⟨hclient, hserver, hup, hdown, hgood⟩ := ht
  simp only at hclient hserver hup hdown hgood hact
  cases hact with
  | @send chunk k _ _ j hj hle =>
    obtain ⟨⟨_, ⟨rest, hout⟩, _⟩, hk⟩ := hclient
    refine ⟨cin, cout.drop j, sinp, sout, d, hk _ _ ⟨j, hj, hle, rfl, rfl⟩, hserver, ?_, hdown, hgood⟩
    simp only at hout ⊢
    rw [hup, ← hout, List.drop_append_of_le_length hle, List.append_assoc toServer,
      ← List.append_assoc (chunk.take j), List.take_append_drop]
  | @recv limit k _ _ j hj hlim hle =>
    obtain ⟨_, hk⟩ := hclient
    have hnext := hk _ _ ⟨j, hj, hlim, by rw [hdown, List.length_append]; omega, rfl, rfl⟩
    simp only [hdown, List.take_append_of_le_length hle, List.drop_append_of_le_length hle] at hnext
    refine ⟨_, cout, sinp, sout, d, hnext, hserver, ?_, rfl, hgood⟩
    simp only [List.append_nil]
    exact hup
  | @loc op k _ _ _ r hr =>
    obtain ⟨⟨hvalid, hbegin⟩, hk⟩ := hclient
    have hgood' := A.good_step hgood hvalid hr
    cases hop : begins op with
    | none =>
      have hnext := hk r ⟨cin, cout, (d, host)⟩ ⟨hr, by rw [hop]; exact ⟨rfl, rfl, rfl⟩⟩
      refine ⟨cin, cout, sinp, sout, d, hnext, hserver, ?_, hdown, hgood'⟩
      simp only [List.append_nil]
      exact hup
    | some q =>
      obtain ⟨hadm, hcin, hcout⟩ := hbegin q hop
      have hnext := hk r ⟨X.response d q, X.request q, (X.after d q, host)⟩
        ⟨hr, by rw [hop]; exact ⟨rfl, rfl, rfl⟩⟩
      simp only at hcin hcout hadm
      obtain ⟨hqueue, hsout⟩ := List.append_eq_nil_iff.mp (hdown.symm.trans hcin)
      have hsinp := hserver.drained hsout
      have htoServer := (List.append_eq_nil_iff.mp (hup.symm.trans hsinp)).1
      rw [hsinp, hsout] at hserver
      refine ⟨_, _, _, _, _, hnext, hserver.begin A hadm, ?_, ?_, hgood'⟩
      · rw [htoServer]
        rfl
      · rw [hqueue]
        rfl

theorem Together.step (A : Agreement P X begins valid Idle Top Good) {c c' : Duplex C S α β σ τ}
    {cin cout sinp sout : List UInt8} {d : D}
    (ht : Together P X begins valid Idle Top Good c cin cout sinp sout d) (hstep : Duplex.Step P c c') :
    ∃ cin cout sinp sout d, Together P X begins valid Idle Top Good c' cin cout sinp sout d := by
  cases hstep with
  | client hact => exact ht.client_acts A hact
  | server hact =>
    obtain ⟨hclient, hserver, hup, hdown, hgood⟩ := ht
    obtain ⟨out', hserver', hout⟩ := hserver.acts A hup hact
    refine ⟨cin, cout, _, out', d, hclient, hserver', rfl, ?_, hgood⟩
    rw [hdown, hout, List.append_assoc]
  | job hret hjob =>
    obtain ⟨hclient, hserver, hup, hdown, hgood⟩ := ht
    rw [hret] at hclient
    obtain ⟨hcin, hcout, hidle⟩ := hclient
    simp only at hcin hcout
    subst hcin hcout
    exact ⟨_, _, _, _, _, A.job_ok hidle hjob, hserver, hup, hdown, hgood⟩
  | round hret hround =>
    obtain ⟨hclient, hserver, hup, hdown, hgood⟩ := ht
    rw [hret] at hserver
    exact ⟨_, _, _, _, _, hclient, hserver.round A hround, hup, hdown, hgood⟩

theorem Duplex.Reachable.together (A : Agreement P X begins valid Idle Top Good)
    {a : α} {p : Prog (wire S) β} {ch : σ} {sh : τ} {d : D} (hidle : Idle a d ch) (htop : Top p sh d)
    (hgood : Good ch) {c : Duplex C S α β σ τ}
    (hr : Duplex.Reachable P ⟨.ret a, ch, p, sh, [], []⟩ c) :
    ∃ cin cout sinp sout d, Together P X begins valid Idle Top Good c cin cout sinp sout d := by
  induction hr with
  | init => exact ⟨[], [], [], [], d, ⟨rfl, rfl, hidle⟩, .waiting htop rfl rfl, rfl, rfl, hgood⟩
  | step _ hstep ih =>
    obtain ⟨_, _, _, _, _, ht⟩ := ih
    exact ht.step A hstep

section Consequences
variable {c : Duplex C S α β σ τ} {cin cout sinp sout : List UInt8} {d : D}

theorem Together.empty (ht : Together P X begins valid Idle Top Good c cin cout sinp sout d)
    (hcin : cin = []) : c.toServer = [] ∧ c.toClient = [] := by
  obtain ⟨hqueue, hsout⟩ := List.append_eq_nil_iff.mp (ht.down.symm.trans hcin)
  exact ⟨(List.append_eq_nil_iff.mp (ht.up.symm.trans (ht.server.drained hsout))).1, hqueue⟩

/-- No bytes are on the way when a job is over or a request is about to begin. -/
theorem Together.quiet (ht : Together P X begins valid Idle Top Good c cin cout sinp sout d)
    (h : (∃ a, c.client = .ret a) ∨ ∃ op k, c.client = .ask (.loc op) k ∧ (begins op).isSome) :
    c.toServer = [] ∧ c.toClient = [] := by
  have hclient := ht.client
  rcases h with ⟨a, ha⟩ | ⟨op, k, hop, hq⟩
  · rw [ha] at hclient
    exact ht.empty hclient.1
  · rw [hop] at hclient
    obtain ⟨q, hq⟩ := Option.isSome_iff_exists.mp hq
    exact ht.empty (hclient.1.2 q hq).2.1

theorem ServerAt.progress (A : Agreement P X begins valid Idle Top Good) {p : Prog (wire S) β}
    {inp out : List UInt8} {h : τ} (hs : ServerAt P X Top p inp out h d) (hout : out ≠ []) :
    (∃ p' h' queue' sent, Acts P.serverEnv p h inp p' h' queue' sent) ∨
      ∃ b p', p = .ret b ∧ P.round b = some p' := by
  cases hs with
  | busy hserve _ =>
    cases p with
    | ret b => exact absurd hserve.2.1 hout
    | ask op k =>
      left
      cases op with
      | send chunk =>
        have hlen := List.length_pos_iff.mpr hserve.1.1
        exact ⟨_, _, _, _, .send (j := 1) (Nat.le_refl _) hlen⟩
      | recv limit =>
        obtain ⟨⟨hpos, hle, _⟩, _⟩ := hserve
        exact ⟨_, _, _, _, .recv (j := limit) hpos (Nat.le_refl _) hle⟩
      | loc op =>
        obtain ⟨r, h', hr⟩ := A.server_total h op
        exact ⟨_, _, _, _, .loc hr⟩
  | late d₀ q hserve _ _ _ _ =>
    cases p with
    | ret b =>
      obtain ⟨_, _, p', hp', _⟩ := hserve
      exact Or.inr ⟨b, p', rfl, hp'⟩
    | ask op k =>
      left
      cases op with
      | send chunk =>
        obtain ⟨⟨hne, hpre, _⟩, _⟩ := hserve
        exact absurd (List.prefix_nil.mp hpre) hne
      | recv limit =>
        obtain ⟨⟨hpos, hlen, _⟩, _⟩ := hserve
        simp at hlen
        omega
      | loc op =>
        obtain ⟨r, h', hr⟩ := A.server_total h op
        exact ⟨_, _, _, _, .loc hr⟩
  | waiting _ _ hnil => exact absurd hnil hout

theorem Together.progress (A : Agreement P X begins valid Idle Top Good)
    (ht : Together P X begins valid Idle Top Good c cin cout sinp sout d)
    (h : ¬∃ a, c.client = .ret a) : ∃ c', Duplex.Step P c c' := by
  obtain ⟨client, clientHost, server, serverHost, toServer, toClient⟩ := c
  obtain ⟨hclient, hserver, hup, hdown, _⟩ := ht
  simp only at hclient hserver hup hdown h
  cases client with
  | ret a => exact absurd ⟨a, rfl⟩ h
  | ask op k =>
    cases op with
    | send chunk =>
      have hlen := List.length_pos_iff.mpr hclient.1.1
      exact ⟨_, .client (.send (j := 1) (Nat.le_refl _) hlen)⟩
    | loc op =>
      obtain ⟨r, host, hr⟩ := A.client_total clientHost op
      exact ⟨_, .client (.loc hr)⟩
    | recv limit =>
      obtain ⟨⟨hpos, hle, hturn⟩, _⟩ := hclient
      by_cases hqueue : toClient = []
      · -- the whole request is on its way, so the server can go on
        have hsout : sout ≠ [] := by
          rintro rfl
          rw [hdown, hqueue] at hle
          simp at hle
          omega
        have hcout : cout = [] := hturn trivial
        rw [hcout, List.append_nil] at hup
        subst hup
        rcases hserver.progress A hsout with ⟨p', h', queue', sent, hact⟩ | ⟨b, p', hb, hround⟩
        · exact ⟨_, .server hact⟩
        · exact ⟨_, .round hb hround⟩
      · have hlen := List.length_pos_iff.mpr hqueue
        exact ⟨_, .client (.recv (j := 1) (Nat.le_refl _) hpos hlen)⟩

end Consequences

end Invariant

end Winspire.Interaction
