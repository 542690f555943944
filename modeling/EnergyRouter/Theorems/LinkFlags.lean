import EnergyRouter.Lemmas.Build
import EnergyRouter.Lib.Runs
import EnergyRouter.Theorems.Security

/-!
# The flags of a session

The port counts as connected from the first connection request on, whatever the ESAM said to it. The login never succeeds: what the
other side answers is compared with the kinds of requests where it has just been found to be 0x80. The routines of the other
services are parameters.
-/

namespace EnergyRouter

open Buffer Runs

variable {dataRev d d' : CharPointDataManage} {result : Int}

/-! ## The port and its world -/

/-- What is around the port: the two places the last builder left, whether a routine did not return, the exchange of a connection
request with its result, and whatever else there is. -/
structure Around (W : Type) where
  rest : W
  lenPosition : Nat
  hcsPosition : Nat
  lost : Bool
  connection : Option (Exchange × Int)

variable {W : Type}

/-- The port after a routine that did not return. -/
def Port.lose (p : Port (Around W)) : Port (Around W) := { p with world := { p.world with lost := true } }

/-- `connect_response_package` as a routine of the dispatcher. -/
def connectRoutine (link : Link) (factory : FactoryVersion) (dataRev : CharPointDataManage) (p : Port (Around W)) :
    Int × Port (Around W) :=
  match connectResponsePackage (fun _ => link) factory dataRev (p.state, p.dataTx, ⟨p.esam, []⟩) with
  | some (result, s, d, t) => (result, ⟨s, d, t.esam, { p.world with connection := t.made.getLast?.map (·, result) }⟩)
  | none => (-1, p.lose)

/-- `security_get_package` as a routine of the dispatcher. -/
def wrapRoutine (link : Link) (p : Port (Around W)) : Int × Port (Around W) :=
  match securityGetPackage (fun _ => link) p.world.lenPosition p.world.hcsPosition (p.dataTx, ⟨p.esam, []⟩) with
  | some (result, d, t) => (result, { p with dataTx := d, esam := t.esam })
  | none => (-1, p.lose)

/-- The routines of the dispatcher, of which those of the get and action services are given. -/
def sessionRoutines (factory : FactoryVersion) (others : Routines (Around W)) (connect wrap : Link) : Routines (Around W) :=
  { others with
    connectResponsePackage := connectRoutine connect factory
    securityGetPackage := wrapRoutine wrap }

/-- The kinds of link requests that are sent. -/
inductive LinkRequest
  | load
  | heartBeat
  deriving DecidableEq, Repr

/-- The port, the link request that was not answered yet, and the frame that was served last, as it was served. -/
structure Linked (W : Type) where
  port : Port (Around W)
  asked : Option LinkRequest
  processed : Option CharPointDataManage

/-- A frame comes in, with what its exchanges meet, or the thread looks whether a link request is due. -/
inductive LinkOp
  | received (dataRev : CharPointDataManage) (unwrap connect wrap : Link)
  | request (clock : Clock)

def Linked.step (factory : FactoryVersion) (others : Routines (Around W)) (s : Linked W) : LinkOp → Option (Linked W)
  | .received dataRev unwrap connect wrap => do
    let a ← rev698DelAffairs (sessionRoutines factory others connect wrap) unwrap.fuel unwrap.sendbuf unwrap.spi dataRev
      { s.port with world := { s.port.world with lost := false, connection := none } }
    if a.port.world.lost then none
    else some ⟨a.port, if a.dataRev.usrByte 0 = some 0x81 then none else s.asked, some a.dataRev⟩
  | .request clock => do
    let (result, dataTx, state) ← linkRequestPackage clock s.port.dataTx s.port.state
    let kind := if state.tryLinkType = 0 then .load else .heartBeat
    some ⟨{ s.port with dataTx := dataTx, state := state }, if result = 0 then some kind else s.asked, none⟩

/-! ## What is asked of the flags -/

/-- The ESAM did its part for the connection request, and the answer was built. -/
def Linked.Agreed (s : Linked W) : Prop := ∃ x, s.port.world.connection = some (x, 0) ∧ x.res = .eok

/-- The ESAM answered the connection request with all that goes into the answer. -/
def Linked.Answered (s : Linked W) : Prop :=
  ∃ x result, s.port.world.connection = some (x, result) ∧ x.res = .eok ∧ 52 ≤ x.delivered.length

/-- The frame says that the login which was asked for succeeded. -/
def Linked.AnswersLogin (s : Linked W) (d : CharPointDataManage) : Prop :=
  d.usrByte 0 = some 0x81 ∧ d.usrByte 2 = some 0x80 ∧ s.asked = some .load

section Demands

variable (factory : FactoryVersion) (others : Routines (Around W))

/-- A connection request sets its flag only when all went well, and the answer to a login sets the other one. -/
def FlagsRight (s : Linked W) (op : LinkOp) : Prop :=
  ∀ s', s.step factory others op = some s' → ∀ d, s'.processed = some d →
    (d.usrByte 0 = some 2 → s'.Agreed ∨ s'.port.state.connectFlag = s.port.state.connectFlag) ∧
    (s.AnswersLogin d → s'.port.state.linkFlag = 1)

/-- A connection request is answered by the ESAM, or comes when the port is connected, and no login is answered. -/
def FlagsAllowed (s : Linked W) (op : LinkOp) : Prop :=
  ∀ s', s.step factory others op = some s' → ∀ d, s'.processed = some d →
    (d.usrByte 0 = some 2 → s'.Answered ∨ s.port.state.connectFlag = 1) ∧ ¬ s.AnswersLogin d

/-- The routines of the other services leave the link flag alone. -/
structure KeepsLink : Prop where
  get : ∀ d p, (others.getResponsePackage d p).2.state.linkFlag = p.state.linkFlag
  action : ∀ d p, (others.actionResponsePackage d p).2.state.linkFlag = p.state.linkFlag
  notice : ∀ d p, (others.actionResponseNoticeUser d p).2.state.linkFlag = p.state.linkFlag

end Demands

/-! ## The routines -/

/-- What the routine of a connection request does besides building the answer. -/
theorem connectResponsePackage_spec {links : Nat → Link} {factory : FactoryVersion} {s s' : State698} {e : Esam} {t : Talk}
    (h : connectResponsePackage links factory dataRev (s, d, ⟨e, []⟩) = some (result, s', d', t)) :
    ∃ x, t.made = [x] ∧ (x.res = .eok → (result = 0 ↔ 52 ≤ x.delivered.length)) ∧ s'.linkFlag = s.linkFlag := by
  obtain ⟨d₁, x, hunpackage, -, hmade, hproper, htail⟩ := connectResponsePackage_cases h
  refine ⟨x, hmade, ?_, ?_⟩
  · intro hres
    rw [(hproper.eok hres).len] at htail
    unfold connectTail at htail
    split_ifs at htail with hshort
    · cases htail
      constructor
      · intro hzero
        cases hzero
      · omega
    · exact ⟨fun _ => by omega, fun _ => closeFrame_result htail⟩
  · unfold unPackage698ConnectRequest at hunpackage
    simp only [Option.bind_eq_bind, Option.bind_eq_some_iff] at hunpackage
    obtain ⟨_, _, _, _, _, _, hunpackage⟩ := hunpackage
    cases hunpackage
    rfl

theorem wrapRoutine_keeps (link : Link) (p : Port (Around W)) :
    (wrapRoutine link p).2.state = p.state ∧ (wrapRoutine link p).2.world.connection = p.world.connection ∧
      ((wrapRoutine link p).2.world.lost = false → p.world.lost = false) := by
  unfold wrapRoutine
  split
  · exact ⟨rfl, rfl, id⟩
  · refine ⟨rfl, rfl, ?_⟩
    intro hlost
    cases hlost

/-- A link request leaves the link flag alone, and it is a login only while the flag is not set. -/
theorem linkRequestPackage_linkFlag {clock : Clock} {s s' : State698} (h : linkRequestPackage clock d s = some (result, d', s')) :
    s'.linkFlag = s.linkFlag ∧ (result = 0 → s'.tryLinkType = 0 → s.linkFlag = 0) := by
  unfold linkRequestPackage at h
  dsimp only at h
  split_ifs at h with hdue hlink hconnect
  · obtain ⟨_, _, h⟩ := Option.bind_eq_some_iff.mp h
    cases h
    exact ⟨rfl, fun _ _ => hlink⟩
  · obtain ⟨_, _, h⟩ := Option.bind_eq_some_iff.mp h
    cases h
    refine ⟨rfl, fun _ hkind => ?_⟩
    cases hkind
  · cases h
    refine ⟨rfl, fun hzero => ?_⟩
    cases hzero
  · cases h
    refine ⟨rfl, fun hzero => ?_⟩
    cases hzero

/-! ## Serving a frame -/

theorem serve_dataRev {routines : Routines W} {p : Port W} {a : Affairs W} (h : serve routines d p = some a) : a.dataRev = d := by
  obtain ⟨tag, htag, -⟩ := Option.bind_eq_some_iff.mp h
  by_cases hserved : tag ∈ servedTags
  · exact (serve_served htag h hserved).1
  · exact (serve_other htag h hserved).2.2.2

/-- A connection request sets its flag whatever the routine says. -/
theorem serve_connect {routines : Routines W} {p : Port W} {a : Affairs W} (htag : d.usrByte 0 = some 2)
    (h : serve routines d p = some a) :
    a.port.state.connectFlag = 1 ∧ a.port.world = (routines.connectResponsePackage d p).2.world := by
  unfold serve at h
  rw [htag] at h
  cases h
  exact ⟨rfl, rfl⟩

/-- The frame that was served, and the port behind it: that of the service, or of the wrapping of its answer. -/
theorem rev698DelAffairs_served {routines : Routines W} {fuel : Nat} {sendbuf : Vector Byte 1024} {spi : Spi} {p : Port W}
    {a : Affairs W} (h : rev698DelAffairs routines fuel sendbuf spi dataRev p = some a) :
    ∃ e a₁, serve routines a.dataRev { p with esam := e } = some a₁ ∧
      (a.port = a₁.port ∨ ∃ dataTx, a.port = (routines.securityGetPackage { a₁.port with dataTx := dataTx }).2) := by
  unfold rev698DelAffairs at h
  obtain ⟨tag, -, h⟩ := Option.bind_eq_some_iff.mp h
  split_ifs at h with hsecured
  · obtain ⟨⟨res, e⟩, -, h⟩ := Option.bind_eq_some_iff.mp h
    obtain ⟨d, -, h⟩ := Option.bind_eq_some_iff.mp h
    obtain ⟨a₁, hserve, h⟩ := Option.bind_eq_some_iff.mp h
    have hd := serve_dataRev hserve
    split_ifs at h with hanswer
    · cases h
      exact ⟨e, a₁, by rw [hd]; exact hserve, .inr ⟨_, rfl⟩⟩
    · cases h
      exact ⟨e, a, by rw [hd]; exact hserve, .inl rfl⟩
  · exact ⟨p.esam, a, by rw [serve_dataRev h]; exact h, .inl rfl⟩

section Session

variable {factory : FactoryVersion} {others : Routines (Around W)} {connect wrap : Link}

theorem connectRoutine_linkFlag (link : Link) (d : CharPointDataManage) (p : Port (Around W)) :
    (connectRoutine link factory d p).2.state.linkFlag = p.state.linkFlag := by
  unfold connectRoutine
  split
  · rename_i hcall
    obtain ⟨_, _, _, hflag⟩ := connectResponsePackage_spec hcall
    exact hflag
  · rfl

/-- No service changes the link flag. -/
theorem serve_linkFlag (hothers : KeepsLink others) {p : Port (Around W)} {a : Affairs (Around W)}
    (h : serve (sessionRoutines factory others connect wrap) d p = some a) : a.port.state.linkFlag = p.state.linkFlag := by
  obtain ⟨tag, htag, -⟩ := Option.bind_eq_some_iff.mp h
  by_cases hserved : tag ∈ servedTags
  · unfold serve at h
    rw [htag] at h
    simp only [servedTags, List.mem_cons, List.not_mem_nil, or_false] at hserved
    rcases hserved with rfl | rfl | rfl | rfl | rfl
    · cases h
      exact connectRoutine_linkFlag connect d p
    · cases h
      rfl
    · cases h
      exact hothers.get d p
    · cases h
      exact hothers.action d p
    · cases h
      exact hothers.notice d p
  · obtain ⟨-, hport, -⟩ := serve_other htag h hserved
    rw [hport]

/-- What is known of a connection request that was served, when its routine returned. -/
theorem serve_connection {p : Port (Around W)} {a : Affairs (Around W)} (htag : d.usrByte 0 = some 2)
    (h : serve (sessionRoutines factory others connect wrap) d p = some a) (hlost : a.port.world.lost = false) :
    ∃ x result, a.port.world.connection = some (x, result) ∧ (x.res = .eok → (result = 0 ↔ 52 ≤ x.delivered.length)) := by
  obtain ⟨-, hworld⟩ := serve_connect htag h
  have hroutine : (sessionRoutines factory others connect wrap).connectResponsePackage d p = connectRoutine connect factory d p := rfl
  rw [hroutine, connectRoutine] at hworld
  cases hcall : connectResponsePackage (fun _ => connect) factory d (p.state, p.dataTx, ⟨p.esam, []⟩) with
  | none =>
    rw [hcall] at hworld
    rw [hworld] at hlost
    cases hlost
  | some outcome =>
    obtain ⟨result, s, d', t⟩ := outcome
    obtain ⟨x, hmade, hresult, -⟩ := connectResponsePackage_spec hcall
    rw [hcall] at hworld
    refine ⟨x, result, ?_, hresult⟩
    rw [hworld]
    simp only [hmade, List.getLast?_singleton, Option.map_some]

/-! ## Steps -/

variable {s s' : Linked W}

/-- A frame that came in was served as it was processed, and the wrapping of its answer is nothing to the flags. -/
theorem Linked.step_received {unwrap : Link} (h : s.step factory others (.received dataRev unwrap connect wrap) = some s') :
    ∃ d p a, s'.processed = some d ∧ p.state = s.port.state ∧ serve (sessionRoutines factory others connect wrap) d p = some a ∧
      s'.port.state = a.port.state ∧ s'.port.world.connection = a.port.world.connection ∧ a.port.world.lost = false ∧
      s'.asked = if d.usrByte 0 = some 0x81 then none else s.asked := by
  obtain ⟨a, hcall, h⟩ := Option.bind_eq_some_iff.mp h
  obtain ⟨e, a₁, hserve, hport⟩ := rev698DelAffairs_served hcall
  by_cases hlost : a.port.world.lost = true
  · rw [if_pos hlost] at h
    cases h
  rw [if_neg hlost] at h
  cases h
  rw [Bool.not_eq_true] at hlost
  refine ⟨a.dataRev, _, a₁, rfl, ?_, hserve, ?_⟩
  · rfl
  rcases hport with hport | ⟨dataTx, hport⟩
  · rw [hport] at hlost ⊢
    exact ⟨rfl, rfl, hlost, rfl⟩
  · obtain ⟨hstate, hconnection, hkept⟩ := wrapRoutine_keeps wrap { a₁.port with dataTx := dataTx }
    have hwrap : a.port = (wrapRoutine wrap { a₁.port with dataTx := dataTx }).2 := hport
    rw [hwrap] at hlost ⊢
    exact ⟨hstate, hconnection, hkept hlost, rfl⟩

/-- While a login is waited for, the link flag is not set. -/
def Linked.Waits (s : Linked W) : Prop := s.asked = some .load → s.port.state.linkFlag = 0

theorem Linked.Waits.step (h : s.Waits) (hothers : KeepsLink others) {op : LinkOp} (hstep : s.step factory others op = some s') :
    s'.Waits := by
  intro hasked
  cases op with
  | received dataRev unwrap connect wrap =>
    obtain ⟨d, p, a, -, hp, hserve, hstate, -, -, hstill⟩ := Linked.step_received hstep
    rw [hstate, serve_linkFlag hothers hserve, hp]
    rw [hstill] at hasked
    split_ifs at hasked
    exact h hasked
  | request clock =>
    obtain ⟨⟨result, dataTx, state⟩, hcall, hstep⟩ := Option.bind_eq_some_iff.mp hstep
    cases hstep
    obtain ⟨hkept, hlogin⟩ := linkRequestPackage_linkFlag hcall
    show state.linkFlag = 0
    rw [hkept]
    dsimp only at hasked
    by_cases hsent : result = 0
    · by_cases hkind : state.tryLinkType = 0
      · exact hlogin hsent hkind
      · rw [if_pos hsent, if_neg hkind] at hasked
        cases hasked
    · rw [if_neg hsent] at hasked
      exact h hasked

/-- In a step, both flags become what they should exactly when the step is allowed. -/
theorem Linked.Waits.flagsRight_iff (h : s.Waits) (op : LinkOp) :
    FlagsRight factory others s op ↔ FlagsAllowed factory others s op := by
  refine forall_congr' fun s' => forall_congr' fun hstep => forall_congr' fun d => forall_congr' fun hd => and_congr ?_ ?_
  all_goals
    cases op with
    | request clock =>
      obtain ⟨_, -, hstep⟩ := Option.bind_eq_some_iff.mp hstep
      cases hstep
      cases hd
    | received dataRev unwrap connect wrap => ?_
  · obtain ⟨d', p, a, hd', hp, hserve, hstate, hconnection, hlost, -⟩ := Linked.step_received hstep
    cases hd'.symm.trans hd
    refine imp_congr_right fun htag => ?_
    obtain ⟨x, result, hx, hresult⟩ := serve_connection htag hserve hlost
    rw [hstate, (serve_connect htag hserve).1]
    rw [hx] at hconnection
    refine or_congr ⟨?_, ?_⟩ eq_comm
    · rintro ⟨x', hx', hres⟩
      cases hconnection.symm.trans hx'
      exact ⟨x, 0, hconnection, hres, (hresult hres).mp rfl⟩
    · rintro ⟨x', result', hx', hres, hlen⟩
      cases hconnection.symm.trans hx'
      refine ⟨x, ?_, hres⟩
      rw [hconnection, (hresult hres).mpr hlen]
  · obtain ⟨d', p, a, hd', hp, hserve, hstate, -⟩ := Linked.step_received hstep
    cases hd'.symm.trans hd
    refine ⟨?_, fun hnot hlogin => absurd hlogin hnot⟩
    rintro hset ⟨htag, hresult, hasked⟩
    have hone := hset ⟨htag, hresult, hasked⟩
    obtain ⟨-, hport, -⟩ := serve_other htag hserve (by decide)
    rw [hstate, hport, hp, h hasked] at hone
    cases hone

/-! ## Runs -/

/-- Over every run that begins with no link request sent: every step leaves the flags as it should exactly when every connection
request is answered by the ESAM or finds the port connected, and no login is answered with success. -/
theorem session_flags_iff (factory : FactoryVersion) {others : Routines (Around W)} (hothers : KeepsLink others)
    (p : Port (Around W)) (ops : List LinkOp) :
    Meets (Linked.step factory others) (FlagsRight factory others) ⟨p, none, none⟩ ops ↔
      Meets (Linked.step factory others) (FlagsAllowed factory others) ⟨p, none, none⟩ ops := by
  have hstart : (⟨p, none, none⟩ : Linked W).Waits := by
    intro hasked
    cases hasked
  exact meets_congr (fun s op h => h.flagsRight_iff op) (fun s op s' h _ hstep => h.step hothers hstep) hstart ops

end Session

/-- Other services that do nothing. -/
def quiet : Routines (Around Unit) where
  connectResponsePackage _ p := (1, p)
  getResponsePackage _ p := (1, p)
  actionResponsePackage _ p := (1, p)
  actionResponseNoticeUser _ p := (1, p)
  securityGetPackage p := (1, p)

theorem quiet_keepsLink : KeepsLink quiet := ⟨fun _ _ => rfl, fun _ _ => rfl, fun _ _ => rfl⟩

def zeroFactory : FactoryVersion :=
  ⟨Vector.replicate 4 0, Vector.replicate 4 0, Vector.replicate 6 0, Vector.replicate 4 0, Vector.replicate 6 0, Vector.replicate 8 0⟩

/-- The port after `init_698_state`. -/
def quietPort : Port (Around Unit) where
  state := init698State getCurrentTime zeroState
  dataTx := { zeroBuffer with size := hplcDataMaxSize }
  esam := zeroEsam
  world := ⟨(), 1, 12, false, none⟩

/-- An ESAM whose bus cannot be taken. -/
def busless : Link := ⟨0, Vector.replicate 1024 0, noBus⟩

/-- A frame met by such an ESAM. -/
def receivedBusless (apdu : List Byte) : LinkOp := .received (receivedApdu apdu) busless busless busless

/-- A connection request that the ESAM does not answer leaves the flag of a connected port as it is. -/
theorem session_flags_connected :
    Meets (Linked.step zeroFactory quiet) (FlagsRight zeroFactory quiet)
      ⟨{ quietPort with state := { quietPort.state with connectFlag := 1 } }, none, none⟩ [receivedBusless [2]] := by
  refine (session_flags_iff zeroFactory quiet_keepsLink _ _).mpr ⟨?_, fun _ _ => trivial⟩
  intro s' _ d _
  refine ⟨fun _ => .inr rfl, ?_⟩
  rintro ⟨-, -, hasked⟩
  cases hasked

/-- A clock an hour past the constant that the time of the last link request is set to. -/
def lateClock : Clock := fun _ => #v[0xfe, 0xfe, 0xfe, 0xfe, 0xfe, 0xff, 0xfe, 0xfe, 0xfe, 0xfe]

/-- A connection request that the ESAM does not answer sets the flag, and the success of a login does not set the other one. -/
theorem session_flags_wrong :
    ¬ Meets (Linked.step zeroFactory quiet) (FlagsRight zeroFactory quiet) ⟨quietPort, none, none⟩ [receivedBusless [2]] ∧
    ¬ Meets (Linked.step zeroFactory quiet) (FlagsRight zeroFactory quiet) ⟨quietPort, none, none⟩
      [.request lateClock, receivedBusless [0x81, 0, 0x80]] := by
  constructor
  · have hrun : (Linked.step zeroFactory quiet ⟨quietPort, none, none⟩ (receivedBusless [2])).map
        (fun s => (s.processed.bind (·.usrByte 0), s.port.state.connectFlag, s.port.world.connection.map (·.1.res))) =
        some (some 2, 1, some .error) := by
      decide +kernel
    intro hmeets
    obtain ⟨s', hstep, hs'⟩ := Option.map_eq_some_iff.mp hrun
    obtain ⟨htag, hflag, hres⟩ : _ ∧ _ ∧ _ := by simpa only [Prod.mk.injEq] using hs'
    obtain ⟨d, hd, htag⟩ := Option.bind_eq_some_iff.mp htag
    rcases (hmeets.1 s' hstep d hd).1 htag with ⟨x, hx, heok⟩ | hsame
    · rw [hx, Option.map_some, heok] at hres
      cases hres
    · rw [hflag] at hsame
      cases hsame
  · have hasked : (Linked.step zeroFactory quiet ⟨quietPort, none, none⟩ (.request lateClock)).map Linked.asked =
        some (some .load) := by
      decide +kernel
    have hrun : ((Linked.step zeroFactory quiet ⟨quietPort, none, none⟩ (.request lateClock)).bind
        (Linked.step zeroFactory quiet · (receivedBusless [0x81, 0, 0x80]))).map
        (fun s => (s.processed.bind (·.usrByte 0), s.processed.bind (·.usrByte 2), s.port.state.linkFlag)) =
        some (some 0x81, some 0x80, 0) := by
      decide +kernel
    intro hmeets
    obtain ⟨s₁, hs₁, hasked⟩ := Option.map_eq_some_iff.mp hasked
    rw [hs₁, Option.bind_some] at hrun
    obtain ⟨s', hstep, hs'⟩ := Option.map_eq_some_iff.mp hrun
    obtain ⟨htag, hresult, hflag⟩ : _ ∧ _ ∧ _ := by simpa only [Prod.mk.injEq] using hs'
    obtain ⟨d, hd, htag⟩ := Option.bind_eq_some_iff.mp htag
    rw [hd, Option.bind_some] at hresult
    have hone := ((hmeets.2 s₁ hs₁).1 s' hstep d hd).2 ⟨htag, hresult, hasked⟩
    rw [hflag] at hone
    cases hone

end EnergyRouter
