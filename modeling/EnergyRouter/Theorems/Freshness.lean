import EnergyRouter.Lemmas.EsamReply

/-!
# Freshness of ESAM replies

Two runs of a call that differ in nothing but what the buffers of the ESAM held before should answer alike when the exchanges
delivered the same bytes, and not at all when one failed. The main result says when they do.
-/

namespace EnergyRouter

open Buffer

variable {made : List Exchange} {ideal : List (List Byte) → Option (List Byte)} {links : Nat → Link} {d d' : CharPointDataManage}
    {result : Int} {s : BleSession}

/-- The calls that build a reply out of the ESAM's, each with everything it works on but the buffers of the ESAM. -/
inductive EsamCall
  | esamOib (oad : Oad698) (d : CharPointDataManage)
  | connect (factory : FactoryVersion) (dataRev : CharPointDataManage) (s : State698) (d : CharPointDataManage)
  | sessInti (devRecv : Ble698Frame) (keys : BleKeys) (stData : ScmUartComm)
  | sessKey (devRecv : Ble698Frame) (keys : BleKeys) (stData : ScmUartComm)

/-- What a call did: the success reply it built, if it built one, and its exchanges. -/
structure Called where
  reply : Option (List Byte)
  made : List Exchange

/-- The reply in a transmit buffer of the 698 thread. -/
def replyIf (success : Prop) [Decidable success] (d : CharPointDataManage) : Option (List Byte) :=
  if success then some (front d.priveData d.dataSize) else none

/-- The reply in the transmit buffer of the UART. -/
def uartReply (stData : ScmUartComm) : List Byte := front stData.txData stData.dataTxLen

/-- What a session request did. -/
def BleSession.called : Bool × BleSession → Called
  | (built, s) => ⟨if built then some (uartReply s.stData) else none, s.talk.made⟩

/-- A call over the links and buffers it meets. -/
def EsamCall.run (links : Nat → Link) (e : Esam) : EsamCall → Option Called
  | esamOib oad d => (oiEsamOib links oad (d, ⟨e, []⟩)).map fun (result, d, t) => ⟨replyIf (result = 0) d, t.made⟩
  | connect factory dataRev s d =>
    (connectResponsePackage links factory dataRev (s, d, ⟨e, []⟩)).map fun (result, _, d, t) => ⟨replyIf (result ≠ -1) d, t.made⟩
  | sessInti devRecv keys stData => (ble698EsamSessIntiPackage links devRecv ⟨keys, stData, ⟨e, []⟩⟩).map BleSession.called
  | sessKey devRecv keys stData => (ble698EsamSessKeyPackage links devRecv ⟨keys, stData, ⟨e, []⟩⟩).map BleSession.called

/-- The replies of a call are fresh on the runs `P` admits: the same bytes delivered give the same reply, and none is built when an
exchange failed. -/
def FreshOn (call : EsamCall) (P : List Exchange → Prop) : Prop :=
  (∀ links e c links' e' c', call.run links e = some c → call.run links' e' = some c' → P c.made → P c'.made →
    c.made.map Exchange.delivered = c'.made.map Exchange.delivered → c.reply = c'.reply) ∧
  (∀ links e c, call.run links e = some c → P c.made → (∃ x ∈ c.made, x.res = .error) → c.reply = none)

/-- The buffer after an exchange looks to the call as if the exchange had succeeded. -/
def EsamCall.Accepts (comm : ScmEsamComm) : EsamCall → Prop
  | esamOib _ _ => 12 ≤ comm.dataRxLen
  | connect _ _ _ _ => 52 ≤ comm.dataRxLen
  | sessInti _ _ _ => StatusOk comm.rx
  | sessKey _ _ _ => StatusOk comm.rx

/-- The bytes the call reads of a reply it takes for a success, where it does not look at the length of the reply. -/
def EsamCall.reads : EsamCall → Nat
  | esamOib oad _ => ((esamAttribute oad.attributeId).map EsamAttribute.reads).getD 0
  | connect _ _ _ _ => 0
  | sessInti _ _ _ => 0
  | sessKey _ _ _ => 20

/-- Whenever the call takes a buffer for a success, all exchanges of the call succeeded and the reply holds what the call reads. -/
def EsamCall.Trusts (call : EsamCall) (made : List Exchange) : Prop :=
  ∀ x ∈ made, call.Accepts x.comm → (∀ y ∈ made, y.res = .eok) ∧ call.reads ≤ x.delivered.length

/-! ## Replies as functions of what was delivered -/

/-- A run whose reply is `ideal` of what was delivered, when every exchange succeeded. -/
structure Called.Answers (c : Called) (call : EsamCall) (ideal : List (List Byte) → Option (List Byte)) : Prop where
  proper : ∀ x ∈ c.made, x.Proper
  accepted : c.reply ≠ none → ∃ x ∈ c.made, call.Accepts x.comm
  fresh : (∀ x ∈ c.made, x.res = .eok) → (∀ x ∈ c.made, call.Accepts x.comm → call.reads ≤ x.delivered.length) →
    c.reply = ideal (c.made.map Exchange.delivered)

/-- The exchanges all succeeded exactly when all of them delivered something. -/
theorem eok_iff_delivered (h : ∀ x ∈ made, x.Proper) :
    (∀ x ∈ made, x.res = .eok) ↔ [] ∉ made.map Exchange.delivered := by
  constructor
  · intro heok hmem
    obtain ⟨x, hx, hnil⟩ := List.mem_map.mp hmem
    have hfive := ((h x hx).eok (heok x hx)).five_le
    rw [hnil] at hfive
    exact absurd hfive (by decide)
  · intro hnot x hx
    by_contra hres
    exact hnot (List.mem_map.mpr ⟨x, hx, (h x hx).error hres⟩)

/-- On the runs it trusts, a call that answers by `ideal` builds what `ideal` says, and nothing after a failure. -/
theorem Called.Answers.reply_eq {c : Called} {call : EsamCall} (h : c.Answers call ideal) (htrusts : call.Trusts c.made) :
    c.reply = if [] ∈ c.made.map Exchange.delivered then none else ideal (c.made.map Exchange.delivered) := by
  split_ifs with hfailed
  · by_contra hreply
    obtain ⟨x, hx, haccepts⟩ := h.accepted hreply
    exact (eok_iff_delivered h.proper).mp (htrusts x hx haccepts).1 hfailed
  · have heok := (eok_iff_delivered h.proper).mpr hfailed
    exact h.fresh heok fun x hx haccepts => (htrusts x hx haccepts).2

/-- A call whose runs all answer by one function is fresh on the runs it trusts. -/
theorem freshOn_of_answers {call : EsamCall} (h : ∀ links e c, call.run links e = some c → c.Answers call ideal) :
    FreshOn call call.Trusts := by
  constructor
  · intro links e c links' e' c' hrun hrun' htrusts htrusts' hsame
    rw [(h links e c hrun).reply_eq htrusts, (h links' e' c' hrun').reply_eq htrusts', hsame]
  · rintro links e c hrun htrusts ⟨x, hx, herror⟩
    have hanswers := h links e c hrun
    have hnil : x.delivered = [] := (hanswers.proper x hx).error (by rw [herror]; nofun)
    rw [hanswers.reply_eq htrusts, if_pos (List.mem_map.mpr ⟨x, hx, hnil⟩)]

/-! ## Objects of the ESAM -/

/-- The value `oi_esam_oib` answers with, out of the replies delivered. -/
def idealOib (attr : EsamAttribute) : Nat → CharPointDataManage → List (List Byte) → Option (List Byte)
  | n + 1, d, reply :: replies =>
    match attr.store reply reply.length (attr.open d) with
    | (true, d) => some (front d.priveData d.dataSize)
    | (false, d) => idealOib attr n d replies
  | _, _, _ => none

theorem EsamAttribute.store_fst (attr : EsamAttribute) (rx : List Byte) (rxLen : Nat) (d : CharPointDataManage) :
    (attr.store rx rxLen d).1 = true ↔ 12 ≤ rxLen := by
  cases attr <;> simp only [EsamAttribute.store] <;> split_ifs with hshort <;> simp <;> omega

/-- What the attempts of `oi_esam_oib` add to the exchanges of the call, and the reply they make. -/
theorem oiEsamLoop_answers {attr : EsamAttribute} {n : Nat} {t t' : Talk}
    (h : oiEsamLoop links attr n (d, t) = some (result, d', t')) :
    ∃ made, t'.made = t.made ++ made ∧ (∀ x ∈ made, x.Proper) ∧ (result = 0 → ∃ x ∈ made, 12 ≤ x.comm.dataRxLen) ∧
      ((∀ x ∈ made, x.res = .eok) → (∀ x ∈ made, 12 ≤ x.comm.dataRxLen → attr.reads ≤ x.delivered.length) →
        replyIf (result = 0) d' = idealOib attr n d (made.map Exchange.delivered)) := by
  induction n generalizing d t with
  | zero =>
    cases h
    exact ⟨[], (List.append_nil _).symm, nofun, nofun, fun _ _ => rfl⟩
  | succ n ih =>
    rw [oiEsamLoop] at h
    obtain ⟨t₁, hexchange, h⟩ := Option.bind_eq_some_iff.mp h
    obtain ⟨x, hmade, hcomm, hproper⟩ := Talk.exchange_spec hexchange
    rw [hcomm] at h
    -- read from the reply when the exchange succeeded
    have hreply : x.res = .eok → (12 ≤ x.comm.dataRxLen → attr.reads ≤ x.delivered.length) →
        attr.store x.comm.rx x.comm.dataRxLen (attr.open d) = attr.store x.delivered x.delivered.length (attr.open d) :=
      fun heok hreads => attr.store_reply (hproper.eok heok) hreads _
    have hfst := attr.store_fst x.comm.rx x.comm.dataRxLen (attr.open d)
    generalize hstore : attr.store x.comm.rx x.comm.dataRxLen (attr.open d) = stored at h hreply hfst
    obtain ⟨success, d₁⟩ := stored
    cases success with
    | true =>
      cases h
      refine ⟨[x], hmade, ?_, fun _ => ⟨x, List.mem_singleton_self x, hfst.mp rfl⟩, ?_⟩
      · simpa using hproper
      · intro heok hreads
        have hideal := hreply (heok x (List.mem_singleton_self x)) (hreads x (List.mem_singleton_self x))
        simp only [List.map_cons, List.map_nil, idealOib, ← hideal, replyIf, if_true]
    | false =>
      obtain ⟨made, hrest, hpropers, haccepted, hfresh⟩ := ih h
      refine ⟨x :: made, ?_, ?_, ?_, ?_⟩
      · rw [hrest, hmade, List.append_assoc, List.singleton_append]
        rfl
      · exact List.forall_mem_cons.mpr ⟨hproper, hpropers⟩
      · intro hzero
        obtain ⟨y, hy, hlong⟩ := haccepted hzero
        exact ⟨y, List.mem_cons_of_mem x hy, hlong⟩
      · intro heok hreads
        obtain ⟨heokx, heokrest⟩ := List.forall_mem_cons.mp heok
        obtain ⟨hreadsx, hreadsrest⟩ := List.forall_mem_cons.mp hreads
        simp only [List.map_cons, idealOib, ← hreply heokx hreadsx]
        exact hfresh heokrest hreadsrest

theorem esamOib_answers (oad : Oad698) (d : CharPointDataManage) :
    ∃ ideal, ∀ links e c, (EsamCall.esamOib oad d).run links e = some c → c.Answers (.esamOib oad d) ideal := by
  by_cases hoi : oad.oi1 = 0
  · cases hattr : esamAttribute oad.attributeId with
    | none =>
      refine ⟨fun _ => none, fun links e c hrun => ?_⟩
      simp only [EsamCall.run, oiEsamOib, if_pos hoi, hattr, Option.map_some] at hrun
      cases hrun
      exact ⟨nofun, fun hreply => absurd rfl hreply, fun _ _ => rfl⟩
    | some attr =>
      refine ⟨idealOib attr 5 d, fun links e c hrun => ?_⟩
      simp only [EsamCall.run, oiEsamOib, if_pos hoi, hattr, Option.map_eq_some_iff] at hrun
      obtain ⟨⟨result, d', t⟩, hloop, rfl⟩ := hrun
      obtain ⟨made, hmade, hproper, haccepted, hfresh⟩ := oiEsamLoop_answers hloop
      rw [List.nil_append] at hmade
      refine ⟨?_, ?_, ?_⟩
      · rw [hmade]
        exact hproper
      · intro hreply
        rw [hmade]
        exact haccepted (by by_contra hne; exact hreply (if_neg hne))
      · rw [hmade]
        intro heok hreads
        refine hfresh heok fun x hx hlong => ?_
        have hcovers := hreads x hx hlong
        simp only [EsamCall.reads, hattr, Option.map_some, Option.getD_some] at hcovers
        exact hcovers
  · refine ⟨fun _ => none, fun links e c hrun => ?_⟩
    simp only [EsamCall.run, oiEsamOib, if_neg hoi, Option.map_some] at hrun
    cases hrun
    exact ⟨nofun, fun hreply => absurd rfl hreply, fun _ _ => rfl⟩

/-! ## Connection requests -/

/-- The answer to a connection request, out of the reply delivered. -/
def idealConnect (factory : FactoryVersion) (dataRev : CharPointDataManage) (s : State698) (d : CharPointDataManage) :
    List (List Byte) → Option (List Byte)
  | [reply] => do
    let s ← unPackage698ConnectRequest dataRev s
    let (d, lenPosition, hcsPosition) :=
      openResponse dataRev.frame698.head d (0xc0 ||| 0x03) (copiedAddr d s.addr dataRev.frame698.addr.ca)
    let d ← connectHead factory dataRev d
    let (result, d) ← connectTail d lenPosition hcsPosition reply reply.length
    replyIf (result ≠ -1) d
  | _ => none

/-- An answer is built only when the length is that of a reply. -/
theorem connectTail_accepted {lenPosition hcsPosition rxLen : Nat} {rx : List Byte}
    (h : connectTail d lenPosition hcsPosition rx rxLen = some (result, d')) (hresult : result ≠ -1) : 52 ≤ rxLen := by
  by_contra hshort
  rw [connectTail, if_pos (by omega)] at h
  cases h
  exact hresult rfl

theorem connect_answers (factory : FactoryVersion) (dataRev : CharPointDataManage) (s : State698) (d : CharPointDataManage)
    (links : Nat → Link) (e : Esam) (c : Called) (hrun : (EsamCall.connect factory dataRev s d).run links e = some c) :
    c.Answers (.connect factory dataRev s d) (idealConnect factory dataRev s d) := by
  obtain ⟨⟨result, s', d', t'⟩, hcall, rfl⟩ := Option.map_eq_some_iff.mp hrun
  obtain ⟨d₁, x, hunpackage, hhead, hmade, hproper, htail⟩ := connectResponsePackage_cases hcall
  dsimp only
  refine ⟨?_, ?_, ?_⟩
  · rw [hmade]
    simpa using hproper
  · intro hreply
    have hresult : result ≠ -1 := by
      intro hminus
      exact hreply (if_neg (not_not.mpr hminus))
    rw [hmade]
    exact ⟨x, List.mem_singleton_self x, connectTail_accepted htail hresult⟩
  · intro heok _
    rw [hmade] at heok ⊢
    have hholds := hproper.eok (heok x (List.mem_singleton_self x))
    rw [connectTail_reply hholds] at htail
    simp only [List.map_cons, List.map_nil, idealConnect, hunpackage, hhead, htail, Option.bind_eq_bind, Option.bind_some]

/-! ## Sessions over Bluetooth -/

/-- An exchange of a session request, and what follows it. -/
theorem BleSession.asks_cases {cmd : EsamCmd} {next : BleSession → Option (Bool × BleSession)} {out : Bool × BleSession}
    (h : s.asks links cmd next = some out) :
    ∃ (x : Exchange) (t : Talk), t.made = s.talk.made ++ [x] ∧ t.esam.comm = x.comm ∧ x.Proper ∧
      (StatusOk x.comm.rx ∧ next { s with talk := t } = some out ∨ ¬ StatusOk x.comm.rx ∧ out = (false, { s with talk := t })) := by
  unfold BleSession.asks at h
  obtain ⟨t, hexchange, h⟩ := Option.bind_eq_some_iff.mp h
  obtain ⟨x, hmade, hcomm, hproper⟩ := Talk.exchange_spec hexchange
  refine ⟨x, t, hmade, hcomm, hproper, ?_⟩
  simp only [hcomm] at h
  split_ifs at h with hstatus
  · exact .inl ⟨hstatus, h⟩
  · exact .inr ⟨hstatus, (Option.some.inj h).symm⟩

/-- A session request that stopped before its reply answers by any function that is `none` there. -/
theorem BleSession.stopped_answers {call : EsamCall} (hmade : s.talk.made = made) (hproper : ∀ x ∈ made, x.Proper)
    (hideal : (∀ x ∈ made, x.res = .eok) → (∀ x ∈ made, call.Accepts x.comm → call.reads ≤ x.delivered.length) →
      ideal (made.map Exchange.delivered) = none) :
    (BleSession.called (false, s)).Answers call ideal := by
  subst hmade
  exact ⟨hproper, fun hreply => absurd rfl hreply, fun heok hreads => (hideal heok hreads).symm⟩

/-- A session request that stored its reply answers by any function that gives the reply there. -/
theorem BleSession.built_answers {call : EsamCall} {last : Exchange} (hmade : s.talk.made = made) (hproper : ∀ x ∈ made, x.Proper)
    (hlast : last ∈ made) (haccepts : call.Accepts last.comm)
    (hideal : (∀ x ∈ made, x.res = .eok) → call.reads ≤ last.delivered.length →
      ideal (made.map Exchange.delivered) = some (uartReply s.stData)) :
    (BleSession.called (true, s)).Answers call ideal := by
  subst hmade
  exact ⟨hproper, fun _ => ⟨last, hlast, haccepts⟩, fun heok hreads => (hideal heok (hreads last hlast haccepts)).symm⟩

/-- The reply to the first request, out of the replies delivered: the last of the four is in it. -/
def idealInti (devRecv : Ble698Frame) (stData : ScmUartComm) : List (List Byte) → Option (List Byte)
  | [_, _, _, reply] =>
    if StatusOk reply then ((intiData devRecv reply).bind fun data => sessReply devRecv data stData).map uartReply else none
  | _ => none

theorem sessInti_answers (devRecv : Ble698Frame) (keys : BleKeys) (stData : ScmUartComm) (links : Nat → Link) (e : Esam) (c : Called)
    (hrun : (EsamCall.sessInti devRecv keys stData).run links e = some c) :
    c.Answers (.sessInti devRecv keys stData) (idealInti devRecv stData) := by
  obtain ⟨out, hcall, rfl⟩ := Option.map_eq_some_iff.mp hrun
  unfold ble698EsamSessIntiPackage at hcall
  obtain ⟨x₁, t₁, hmade₁, -, hproper₁, ⟨-, hcall⟩ | ⟨-, rfl⟩⟩ := BleSession.asks_cases hcall
  all_goals replace hmade₁ : t₁.made = [x₁] := hmade₁
  swap
  · exact BleSession.stopped_answers hmade₁ (by simpa using hproper₁) fun _ _ => rfl
  obtain ⟨x₂, t₂, hmade₂, -, hproper₂, ⟨-, hcall⟩ | ⟨-, rfl⟩⟩ := BleSession.asks_cases hcall
  all_goals replace hmade₂ : t₂.made = [x₁, x₂] := hmade₂.trans (congrArg (· ++ [x₂]) hmade₁)
  swap
  · exact BleSession.stopped_answers hmade₂ (by simp [hproper₁, hproper₂]) fun _ _ => rfl
  obtain ⟨x₃, t₃, hmade₃, -, hproper₃, ⟨-, hcall⟩ | ⟨-, rfl⟩⟩ := BleSession.asks_cases hcall
  all_goals replace hmade₃ : t₃.made = [x₁, x₂, x₃] := hmade₃.trans (congrArg (· ++ [x₃]) hmade₂)
  swap
  · exact BleSession.stopped_answers hmade₃ (by simp [hproper₁, hproper₂, hproper₃]) fun _ _ => rfl
  obtain ⟨x₄, t₄, hmade₄, hcomm₄, hproper₄, hlast⟩ := BleSession.asks_cases hcall
  replace hmade₄ : t₄.made = [x₁, x₂, x₃, x₄] := hmade₄.trans (congrArg (· ++ [x₄]) hmade₃)
  have hpropers : ∀ x ∈ [x₁, x₂, x₃, x₄], x.Proper := by simp [hproper₁, hproper₂, hproper₃, hproper₄]
  have hfour : x₄ ∈ [x₁, x₂, x₃, x₄] := by simp
  rcases hlast with ⟨hstatus, hcall⟩ | ⟨hstatus, rfl⟩
  · simp only [hcomm₄] at hcall
    obtain ⟨data, hdata, hcall⟩ := Option.bind_eq_some_iff.mp hcall
    obtain ⟨stData', hreply, hcall⟩ := Option.bind_eq_some_iff.mp hcall
    cases hcall
    refine BleSession.built_answers hmade₄ hpropers hfour hstatus fun heok _ => ?_
    have hholds := hproper₄.eok (heok x₄ hfour)
    rw [intiData_reply hholds] at hdata
    simp only [List.map_cons, List.map_nil, idealInti, if_pos (hholds.statusOk.mp hstatus), hdata, Option.bind_some]
    exact congrArg (Option.map uartReply) hreply
  · refine BleSession.stopped_answers hmade₄ hpropers fun heok _ => ?_
    have hholds := hproper₄.eok (heok x₄ hfour)
    exact if_neg fun hok => hstatus (hholds.statusOk.mpr hok)

/-- The reply to the second request, out of the replies delivered: the second must be the number the session began with. -/
def idealKey (devRecv : Ble698Frame) (keys : BleKeys) (stData : ScmUartComm) : List (List Byte) → Option (List Byte)
  | [_, reply] =>
    if StatusOk reply ∧ copyAt keys.r3 0 ((reply.drop 4).take 16) = keys.r1 then
      (sessReply devRecv (keyData devRecv) stData).map uartReply
    else none
  | _ => none

theorem sessKey_answers (devRecv : Ble698Frame) (keys : BleKeys) (stData : ScmUartComm) (links : Nat → Link) (e : Esam) (c : Called)
    (hrun : (EsamCall.sessKey devRecv keys stData).run links e = some c) :
    c.Answers (.sessKey devRecv keys stData) (idealKey devRecv keys stData) := by
  obtain ⟨out, hcall, rfl⟩ := Option.map_eq_some_iff.mp hrun
  unfold ble698EsamSessKeyPackage at hcall
  obtain ⟨x₁, t₁, hmade₁, -, hproper₁, ⟨-, hcall⟩ | ⟨-, rfl⟩⟩ := BleSession.asks_cases hcall
  all_goals replace hmade₁ : t₁.made = [x₁] := hmade₁
  swap
  · exact BleSession.stopped_answers hmade₁ (by simpa using hproper₁) fun _ _ => rfl
  obtain ⟨tx, -, hcall⟩ := Option.bind_eq_some_iff.mp hcall
  obtain ⟨x₂, t₂, hmade₂, hcomm₂, hproper₂, hlast⟩ := BleSession.asks_cases hcall
  replace hmade₂ : t₂.made = [x₁, x₂] := hmade₂.trans (congrArg (· ++ [x₂]) hmade₁)
  have hpropers : ∀ x ∈ [x₁, x₂], x.Proper := by simp [hproper₁, hproper₂]
  have htwo : x₂ ∈ [x₁, x₂] := by simp
  rcases hlast with ⟨hstatus, hcall⟩ | ⟨hstatus, rfl⟩
  · simp only [hcomm₂, ScmEsamComm.rxPart] at hcall
    split_ifs at hcall with hsame
    · obtain ⟨stData', hreply, hcall⟩ := Option.bind_eq_some_iff.mp hcall
      cases hcall
      refine BleSession.built_answers hmade₂ hpropers htwo hstatus fun heok hreads => ?_
      have hholds := hproper₂.eok (heok x₂ htwo)
      rw [hholds.part hreads] at hsame
      refine (if_pos ⟨hholds.statusOk.mp hstatus, hsame⟩).trans ?_
      exact congrArg (Option.map uartReply) hreply
    · cases hcall
      refine BleSession.stopped_answers hmade₂ hpropers fun heok hreads => ?_
      have hholds := hproper₂.eok (heok x₂ htwo)
      rw [hholds.part (hreads x₂ htwo hstatus)] at hsame
      exact if_neg fun hok => hsame hok.2
  · refine BleSession.stopped_answers hmade₂ hpropers fun heok _ => ?_
    have hholds := hproper₂.eok (heok x₂ htwo)
    exact if_neg fun hok => hstatus (hholds.statusOk.mpr hok.1)

/-! ## All four -/

/-- A buffer the 698 thread builds its answers in. -/
def emptyTx : CharPointDataManage := { zeroBuffer with size := hplcDataMaxSize }

/-- The bus cannot be taken. -/
def deadLink : Link := ⟨0, Vector.replicate 1024 0, ⟨false, fun _ => 0⟩⟩

/-- The buffers after an earlier reply. -/
def staleEsam (reply : List Byte) : Esam :=
  { zeroEsam with comm := { zeroEsam.comm with rxData := copyAt zeroEsam.comm.rxData 0 reply, dataRxLen := reply.length } }

/-- A Bluetooth request with no data. -/
def bareBleFrame : Ble698Frame :=
  ⟨0x68, 0, 0, 0x43, 5, Vector.replicate 6 0, 0, 0, 0, 7, Vector.replicate 512 2, 0, 0, 0x16⟩

def zeroUart : ScmUartComm := ⟨0, Vector.replicate 1024 0, 0, Vector.replicate 1024 0⟩

def zeroKeys : BleKeys := ⟨Vector.replicate 16 0, Vector.replicate 16 0, Vector.replicate 16 0, Vector.replicate 32 0⟩

/-- The four calls, each with an earlier reply that suits it. -/
def staleCalls : List (EsamCall × Esam) :=
  [(.esamOib ⟨0xf1, 0, 2, 0⟩ emptyTx, staleEsam (List.replicate 13 0)),
   (.connect ⟨Vector.replicate 4 0, Vector.replicate 4 0, Vector.replicate 6 0, Vector.replicate 4 0, Vector.replicate 6 0,
      Vector.replicate 8 0⟩ (receivedApdu [2]) zeroState emptyTx, staleEsam ([0x90, 0, 0, 52] ++ List.replicate 53 0)),
   (.sessInti bareBleFrame zeroKeys zeroUart, staleEsam [0x90, 0, 0, 0, 0]),
   (.sessKey bareBleFrame zeroKeys zeroUart, staleEsam [0x90, 0, 0, 0, 0])]

end EnergyRouter
