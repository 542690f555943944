import EnergyRouter.Theorems.WireAnswers

/-!
# The acknowledgement of a start or a stop is that of the request

A start or a stop is acknowledged from a copy of the request in an array of 50 bytes: of a request that does not fit, the length is
taken over and the bytes are not, so that those of the request before are sent back.
-/

namespace EnergyRouter

open Calls Runs

variable {w w' w₁ w₂ : Office} {saved : Option (Asked × Request)} {k : Asked} {req : Request} {op : DeskOp}

/-! ## The request a copy stands for -/

/-- The request an event keeps. A method whose `need_package` is set is answered on the spot instead. -/
def Office.saves (w : Office) : DeskOp → Option (Asked × Request)
  | .request _ dataRev =>
    if dataRev.usrByte 0 = some 7 then
      (dataRev.request.asks.filter fun k => !(w.kept k).needPackage).map fun k => (k, dataRev.request)
    else none
  | _ => none

/-- The desk and the last request of each kind that was to be kept. -/
structure Echo where
  desk : Desk
  last : Asked → Option Request

/-- The requests with the one an event keeps. -/
def Echo.note (s : Echo) (op : DeskOp) : Asked → Option Request :=
  match s.desk.2.saves op with
  | some (k, req) => Function.update s.last k (some req)
  | none => s.last

def Echo.step (s : Echo) (op : DeskOp) : Option Echo := (s.desk.next op).map fun desk => ⟨desk, s.note op⟩

/-- No request was kept yet. -/
def powerUpEcho : Echo := ⟨powerUpDesk, fun _ => none⟩

/-! ## The acknowledgement -/

/-- The desk with the memory behind the array of a kept request, which is read when an index leaves the array. -/
def Office.withBehind (w : Office) (k : Asked) (behind : List Byte) : Office :=
  w.setKept k { w.kept k with usrData := (w.kept k).usrData ++ behind }

/-- The acknowledgement that `check_afair_from_botom` builds from the kept request, if it sends one. -/
def Office.acknowledgement (w : Office) (k : Asked) : Except Stop (Option (List Byte)) := do
  let (result, w) ← answerKept .action k (k = .stopChg) (actionResponsePackage waitForLock) w
  .ok (if result = 0 then some w.dataTx.apdu else none)

/-- The acknowledgement of a request: its kind, its number and its method, success, and nothing else. -/
def acknowledgementOf (req : Request) : List Byte :=
  [0x87] ++ (List.range' 1 6).map (fun i => req.usrData.getD i 0) ++ [0, 0, 0, 0]

/-- Whatever stands behind the arrays, the acknowledgement of a start or a stop, if one is sent, is that of the last request. -/
def Echo.Echoes (s : Echo) : Prop :=
  ∀ k ∈ startStop, ∀ req ∈ s.last k, ∀ behind sent,
    (s.desk.2.withBehind k behind).acknowledgement k = .ok (some sent) → sent = acknowledgementOf req

/-- A start or a stop request has its number and its method, and fits the array it is kept in. -/
def DeskOp.Fits : DeskOp → Prop
  | .request _ dataRev =>
    dataRev.usrByte 0 = some 7 → ∀ k ∈ startStop, dataRev.request.asks = some k →
      7 ≤ dataRev.frame698.usrDataLen ∧ dataRev.frame698.usrDataLen < k.usrDataSize
  | _ => True

/-! ## What an event does to the copies -/

/-- A request that is to be kept is saved over the copy of its kind, the other starts and stops stay as they are. -/
structure Saves (saved : Option (Asked × Request)) (w w' : Office) : Prop where
  sound : Sound w → Sound w'
  own : ∀ k req, saved = some (k, req) →
    saveCharPointUsrdata (w.kept k).usrData req.usrData req.usrDataLen = some (w'.kept k).usrData
  other : ∀ j ∈ startStop, (∀ req, saved ≠ some (j, req)) → (w'.kept j).usrData = (w.kept j).usrData

theorem Works.saves (h : Works w w') : Saves none w w' :=
  ⟨h.sound, nofun, fun j _ _ => h.data j⟩

theorem Aside.saves (h : Aside w w') : Saves none w w' := by
  refine ⟨h.sound, nofun, fun j _ _ => ?_⟩
  rw [h.kept]

theorem Saves.trans_works (h : Saves saved w w₁) (hworks : Works w₁ w₂) :
    Saves saved w w₂ := by
  refine ⟨fun hw => hworks.sound (h.sound hw), ?_, ?_⟩
  · intro k req hsaved
    rw [hworks.data]
    exact h.own k req hsaved
  · intro j hj hnot
    rw [hworks.data]
    exact h.other j hj hnot

theorem Saves.answered (h : Saves saved w w') (service : Service698) :
    Saves saved w (w'.answered service) :=
  ⟨fun hw => ⟨(h.sound hw).size, (h.sound hw).addr⟩, h.own, h.other⟩

theorem Keeping.saves (hworks : Works w w₁) (h : Keeping k req w₁ w₂) :
    Saves (some (k, req)) w w₂ := by
  refine ⟨fun hw => h.sound (hworks.sound hw), ?_, ?_⟩
  · intro j req' heq
    cases heq
    rw [← hworks.data]
    exact h.data
  · intro j _ hnot
    have hjk : j ≠ k := fun heq => hnot req (by rw [heq])
    rw [h.other j hjk, hworks.data]

theorem Saves.of_get (hsaves : Saves none w w₁) (h : Keeping .chgPlanIssueGet req w₁ w₂) :
    Saves none w w₂ := by
  refine ⟨fun hw => h.sound (hsaves.sound hw), nofun, ?_⟩
  intro j hj hnot
  have hget : j ≠ .chgPlanIssueGet := by
    rintro rfl
    revert hj
    decide
  rw [h.other j hget]
  exact hsaves.other j hj hnot

theorem Services.afair_works (env : Services) (h : Hplc Unit) (w : Office) :
    Finishes (fun _ => True) (fun desk => Works w desk.2) (env.afair (h, w)) := by
  have hcheck : Finishes (fun _ => True) (fun p => p.2.1.Unlocked ∧ Works w p.2.2) (env.checkAfair (h, w)) :=
    checkAfair_finishes trivial trivial env (.inl trivial)
  exact hcheck.map fun p hp => hp.2

/-- A method is kept in the first pass and answered in the second. -/
theorem actionResponsePackage_saves (env : Services) (req : Request) (h : Hplc Unit) (w : Office) :
    Finishes (fun _ => True)
      (fun p => Saves ((req.asks.filter fun k => !(w.kept k).needPackage).map fun k => (k, req)) w p.2.2)
      (actionResponsePackage env.afair req (h, w)) := by
  generalize hsaved : (req.asks.filter fun k => !(w.kept k).needPackage).map (fun k => (k, req)) = saved
  let P (st : Desk) : Prop := Works w st.2 ∧ st.2.kept = w.kept
  let Q (st : Desk) : Prop := Saves saved w st.2
  have hP : Steady P := by
    rintro _ w₁ w₂ hwrites ⟨hworks, hkept⟩
    exact ⟨hworks.trans hwrites.toWorks, hwrites.kept.trans hkept⟩
  have hQ : Steady Q := fun _ _ _ hwrites hsaves => hsaves.trans_works hwrites.toWorks
  refine actionResponsePackage_finishes (P := P) (Q := Q) trivial hP hQ ?_ ?_ ⟨Works.refl w, rfl⟩
  · rintro hnone st ⟨hworks, _⟩
    rw [hnone] at hsaved
    show Saves saved w st.2
    rw [← hsaved]
    exact hworks.saves
  · rintro k hasks req' hsame h₁ w₁ ⟨hworks, hkept⟩
    rw [hasks, Option.filter_some] at hsaved
    refine askedCase_finishes trivial trivial ?_ ?_
    · intro hneed w' hw'
      rw [hkept] at hneed
      rw [hneed] at hsaved
      show Saves saved w w'
      rw [← hsaved]
      exact (hworks.trans hw').saves
    · intro hneed
      rw [hkept] at hneed
      rw [hneed] at hsaved
      refine (env.afair_works h₁ w₁).imp fun st hst w' hw' => ?_
      show Saves saved w w'
      rw [← hsaved]
      exact (hw'.of_sameData hsame).saves (hworks.trans hst)

theorem Services.request_saves (env : Services) (dataRev : CharPointDataManage) (desk : Desk) :
    Finishes (fun _ => True) (fun d => Saves (desk.2.saves (.request env dataRev)) desk.2 d.2) (env.request dataRev desk) := by
  obtain ⟨h, w⟩ := desk
  refine (orStop_finishes trivial fun tag htag => htag).bind fun tag _ htag => ?_
  simp only [Office.saves, htag, Option.some.injEq]
  refine .ite (fun hget => ?_) fun _ => .ite (fun hmethod => ?_) fun hother => ?_
  · -- a get request: no start or stop is kept, however often the plan is named
    rw [if_neg (by rw [hget]; decide)]
    have hserving : Serving (fun _ => True) (fun st : Desk => Saves none w st.2) env.afair := by
      refine ⟨trivial, trivial, fun _ _ _ hworks hsaves => hsaves.trans_works hworks, ?_⟩
      rintro ⟨h₁, w₁⟩ hsaves
      exact (env.afair_works h₁ w₁).imp fun st hst => hsaves.trans_works hst
    have hpackage : Finishes (fun _ => True) (fun p => Saves none w p.2.2)
        (getResponsePackage env env.afair dataRev.request (h, w)) :=
      hserving.getResponsePackage (fun _ _ _ hkeeping hsaves => hsaves.of_get hkeeping) (Works.refl w).saves
    refine hpackage.bind fun ⟨result, h₁, w₁⟩ _ hp => ?_
    show Saves none w (if result = 0 then w₁.answered .get else w₁)
    split_ifs
    · exact hp.answered .get
    · exact hp
  · rw [if_pos hmethod]
    refine (actionResponsePackage_saves env dataRev.request h w).bind fun ⟨result, h₁, w₁⟩ _ hp => ?_
    show Saves _ w (if result = 0 then w₁.answered .action else w₁)
    split_ifs
    · exact hp.answered .action
    · exact hp
  · rw [if_neg hother]
    exact (Works.refl w).saves

/-- Every event saves the request it is to keep and no other. -/
theorem Desk.next_saves {desk desk' : Desk} (h : desk.next op = some desk') :
    Saves (desk.2.saves op) desk.2 desk'.2 := by
  by_cases hrequest : ∃ env dataRev, op = .request env dataRev
  · obtain ⟨env, dataRev, rfl⟩ := hrequest
    exact (env.request_saves dataRev desk).post_of_toOption h
  · have hnot : ∀ env dataRev, op ≠ .request env dataRev := fun env dataRev heq => hrequest ⟨env, dataRev, heq⟩
    have hnone : desk.2.saves op = none := by
      cases op with
      | request env dataRev => exact absurd rfl (hnot env dataRev)
      | _ => rfl
    rw [hnone]
    have hstep : Finishes (fun _ => True) (fun d => Aside desk.2 d.2 ∨ Works desk.2 d.2) (desk.step op) :=
      Desk.step_of_not_request trivial trivial (.inl trivial) hnot
    rcases hstep.post_of_toOption h with haside | hworks
    · exact haside.saves
    · exact hworks.saves

/-! ## The copies begin as the requests did -/

/-- The copy of every start and stop begins as its last request did. -/
structure Faithful (s : Echo) : Prop where
  sound : Sound s.desk.2
  size : ∀ k ∈ startStop, (s.desk.2.kept k).usrData.length = k.usrDataSize
  asks : ∀ k ∈ startStop, ∀ req ∈ s.last k, req.asks = some k
  front : ∀ k ∈ startStop, ∀ req ∈ s.last k, ∀ i < 7, (s.desk.2.kept k).usrData.getD i 0 = req.usrData.getD i 0

theorem powerUpEcho_faithful : Faithful powerUpEcho := by
  refine ⟨⟨rfl, rfl⟩, ?_, nofun, nofun⟩
  intro k hk
  simp only [startStop, List.mem_cons, List.not_mem_nil, or_false] at hk
  rcases hk with rfl | rfl
  · exact List.length_replicate
  · exact List.length_replicate

theorem saveCharPointUsrdata_getD_of_fits {data res data' : List Byte} {size : Int}
    (h : saveCharPointUsrdata data res size = some data') (hfits : size < data.length) {i : Nat} (hi : i < size) :
    data'.getD i 0 = res.getD i 0 := by
  rcases saveCharPointUsrdata_cases h with ⟨_, hnot⟩ | ⟨_, hlong, rfl⟩
  · exact absurd ⟨by omega, hfits⟩ hnot
  · have hlen : (res.take size.toNat).length = size.toNat := List.length_take_of_le hlong
    rw [List.getD_eq_getElem?_getD, List.getD_eq_getElem?_getD, List.getElem?_append_left (by omega),
      List.getElem?_take_of_lt (by omega)]

theorem Office.saves_eq_some (h : w.saves op = some (k, req)) :
    ∃ env dataRev, op = .request env dataRev ∧ dataRev.usrByte 0 = some 7 ∧ req = dataRev.request ∧ req.asks = some k := by
  cases op with
  | request env dataRev =>
    simp only [Office.saves] at h
    split_ifs at h with htag
    obtain ⟨j, hj, heq⟩ := Option.map_eq_some_iff.mp h
    cases heq
    exact ⟨env, dataRev, rfl, htag, rfl, (Option.filter_eq_some_iff.mp hj).1⟩
  | _ => cases h

theorem Faithful.step {s s' : Echo} (hs : Faithful s) (hfits : op.Fits) (h : s.step op = some s') : Faithful s' := by
  obtain ⟨desk, hdesk, rfl⟩ := Option.map_eq_some_iff.mp h
  have hsaves := Desk.next_saves hdesk
  -- the copy of a kind is that of this request, or the one that was there
  have hkind : ∀ k ∈ startStop, (∃ req, s.desk.2.saves op = some (k, req) ∧ s.note op k = some req) ∨
      (s.note op k = s.last k ∧ (desk.2.kept k).usrData = (s.desk.2.kept k).usrData) := by
    intro k hk
    cases hsaved : s.desk.2.saves op with
    | none =>
      refine .inr ⟨by rw [Echo.note, hsaved], hsaves.other k hk fun req => by rw [hsaved]; nofun⟩
    | some p =>
      obtain ⟨j, req⟩ := p
      by_cases hkj : k = j
      · refine .inl ⟨req, by rw [hkj], ?_⟩
        rw [Echo.note, hsaved, hkj]
        exact Function.update_self _ _ _
      · refine .inr ⟨?_, hsaves.other k hk fun req' heq => ?_⟩
        · rw [Echo.note, hsaved]
          exact Function.update_of_ne hkj _ _
        · rw [hsaved] at heq
          cases heq
          exact hkj rfl
  refine ⟨hsaves.sound hs.sound, ?_, ?_, ?_⟩
  · intro k hk
    rcases hkind k hk with ⟨req, hsaved, _⟩ | ⟨_, hsame⟩
    · exact (saveCharPointUsrdata_length (hsaves.own k req hsaved)).trans (hs.size k hk)
    · rw [hsame]
      exact hs.size k hk
  · intro k hk req hreq
    rcases hkind k hk with ⟨req', hsaved, hnote⟩ | ⟨hnote, _⟩
    · cases hnote.symm.trans hreq
      obtain ⟨_, _, _, _, _, hasks⟩ := Office.saves_eq_some hsaved
      exact hasks
    · exact hs.asks k hk req (hnote ▸ hreq)
  · intro k hk req hreq i hi
    rcases hkind k hk with ⟨req', hsaved, hnote⟩ | ⟨hnote, hsame⟩
    · cases hnote.symm.trans hreq
      obtain ⟨env, dataRev, rfl, htag, rfl, hasks⟩ := Office.saves_eq_some hsaved
      obtain ⟨hlong, hshort⟩ := hfits htag k hk hasks
      refine saveCharPointUsrdata_getD_of_fits (hsaves.own k _ hsaved) ?_ (lt_of_lt_of_le (by omega) hlong)
      rw [hs.size k hk]
      exact hshort
    · rw [hsame]
      exact hs.front k hk req (hnote ▸ hreq) i hi

/-! ## The acknowledgement echoes the request -/

theorem Office.withBehind_usrData (w : Office) (k : Asked) (behind : List Byte) :
    ((w.withBehind k behind).kept k).usrData = (w.kept k).usrData ++ behind := by
  simp only [Office.withBehind, Office.setKept, if_true]

/-- The bytes of an acknowledgement of a start or a stop, from the user data that are kept. -/
theorem Office.acknowledgement_eq (hw : Sound w) {sent : List Byte} (hmethod : (w.kept k).usrData.getD 4 0 = 0x04)
    (h : w.acknowledgement k = .ok (some sent)) :
    sent = acknowledgementOf (w.kept k) := by
  obtain ⟨⟨result, w₂⟩, hanswer, h⟩ := bind_eq_ok h
  obtain ⟨⟨result', _, w₁⟩, hpackage, hanswer⟩ := bind_eq_ok hanswer
  have hset : Works w (w.setNeed k true) := .setNeed w k true
  by_cases hresult : result' = 0
  swap
  · cases hanswer
    dsimp only at h
    rw [if_neg hresult] at h
    cases h
  rw [hresult] at hpackage
  obtain ⟨kind, piid, oad, bs, hkind, hpiid, hoad, hzero, hapdu⟩ := actionResponsePackage_apdu (hset.sound hw) hpackage
  have hdata : w₂.dataTx = w₁.dataTx := by
    cases hanswer
    rw [if_pos hresult]
    split_ifs
    · exact Office.setNeed_dataTx w₁ k false
    · rfl
  have hsent : sent = w₂.dataTx.apdu := by
    cases hanswer
    dsimp only at h
    rw [if_pos hresult] at h
    exact (Option.some.inj (Except.ok.inj h)).symm
  rw [hset.data k] at hoad
  have hkind' := Request.usr_eq_ok (i := 1) hkind
  have hpiid' := Request.usr_eq_ok (i := 2) hpiid
  rw [hset.data k] at hkind' hpiid'
  have hobject := oadPackage_eq hoad
  rw [hsent, hdata, hapdu, hzero (by rw [hobject]; exact hmethod), hobject, ← hkind', ← hpiid']
  rfl

theorem Faithful.echoes {s : Echo} (hs : Faithful s) : s.Echoes := by
  intro k hk req hreq behind sent hsent
  have hseven : 7 ≤ (s.desk.2.kept k).usrData.length := by
    rw [hs.size k hk]
    revert hk
    cases k <;> decide
  have hbyte : ∀ i < 7, ((s.desk.2.withBehind k behind).kept k).usrData.getD i 0 = req.usrData.getD i 0 := by
    intro i hi
    rw [Office.withBehind_usrData, ← hs.front k hk req hreq i hi, List.getD_eq_getElem?_getD, List.getD_eq_getElem?_getD,
      List.getElem?_append_left (by omega)]
  obtain ⟨_, o, ho, hmethod⟩ := Request.asks_eq_some.mp (hs.asks k hk req hreq)
  have hfour : req.usrData.getD 4 0 = 0x04 := by
    have hoi : o.oi1 = req.usrData.getD 4 0 := (oadPackage_bytes ho).1
    rw [← hoi, (Oad698.bytes_of_method hmethod).1]
    revert hk
    cases k <;> decide
  have hsound : Sound (s.desk.2.withBehind k behind) := ⟨hs.sound.size, hs.sound.addr⟩
  rw [Office.acknowledgement_eq hsound ((hbyte 4 (by omega)).trans hfour) hsent, acknowledgementOf, acknowledgementOf]
  have hmap : (List.range' 1 6).map (fun i => ((s.desk.2.withBehind k behind).kept k).usrData.getD i 0) =
      (List.range' 1 6).map (fun i => req.usrData.getD i 0) := by
    refine List.map_congr_left fun i hi => hbyte i ?_
    rw [List.mem_range'_1] at hi
    omega
  rw [hmap]

/-- In every run from power-up in which the start and stop requests fit their arrays, every acknowledgement is that of the last
request of its kind. -/
theorem acknowledgement_echoes {ops : List DeskOp} (hfits : ∀ op ∈ ops, op.Fits) {s : Echo}
    (hrun : run Echo.step powerUpEcho ops = some s) : s.Echoes := by
  have hfits' : Meets Echo.step (fun _ op => op.Fits) powerUpEcho ops := meets_of_mem hfits
  have hfaithful : Meets Echo.step (fun s op => ∀ s', s.step op = some s' → Faithful s') powerUpEcho ops :=
    hfits'.imp_of_inv (fun _ _ _ => Faithful.step) (fun _ _ hs hop _ => hs.step hop) powerUpEcho_faithful
  exact (hfaithful.good_of_run powerUpEcho_faithful hrun).echoes

/-- A start request with the given number (`PIID`) and length of its user data. -/
def numberedStart (piid : Byte) (len : Nat) : DeskOp :=
  .request bareServices (receivedApdu ([7, 1, piid, 0x90, 0x04, 0x7f, 0] ++ List.replicate (len - 7) 0))

/-- The energy control acknowledges a start. -/
def startDone : DeskOp := .post .startChgAck (.ctl ⟨Vector.replicate 17 0, Vector.replicate 23 0, 0, 0, successful⟩)

/-- What is sent for the last start and what should be, with zeros behind the array. -/
def Echo.startSent (s : Echo) : Option (Option (List Byte)) × Option (List Byte) :=
  (((s.desk.2.withBehind .startChg [0]).acknowledgement .startChg).toOption, (s.last .startChg).map acknowledgementOf)

theorem acknowledgement_echoes_short_start : ∃ s, run Echo.step powerUpEcho [numberedStart 2 9, startDone] = some s ∧
    s.startSent = (some (some [0x87, 1, 2, 0x90, 0x04, 0x7f, 0, 0, 0, 0, 0]), some [0x87, 1, 2, 0x90, 0x04, 0x7f, 0, 0, 0, 0, 0]) ∧
    s.Echoes := by
  have hsent : (run Echo.step powerUpEcho [numberedStart 2 9, startDone]).map Echo.startSent =
      some (some (some [0x87, 1, 2, 0x90, 0x04, 0x7f, 0, 0, 0, 0, 0]), some [0x87, 1, 2, 0x90, 0x04, 0x7f, 0, 0, 0, 0, 0]) := by
    decide +kernel
  obtain ⟨s, hrun, hs⟩ := Option.map_eq_some_iff.mp hsent
  refine ⟨s, hrun, hs, acknowledgement_echoes ?_ hrun⟩
  intro op hop
  simp only [List.mem_cons, List.not_mem_nil, or_false] at hop
  rcases hop with rfl | rfl
  · intro _ k hk _
    revert hk
    cases k <;> decide
  · trivial

/-- A start of 50 bytes after another one is acknowledged with the number of that one. -/
theorem long_start_echoes_other : ∃ s, run Echo.step powerUpEcho [numberedStart 1 9, numberedStart 2 50, startDone] = some s ∧
    ¬ s.Echoes := by
  have hsent : (run Echo.step powerUpEcho [numberedStart 1 9, numberedStart 2 50, startDone]).map Echo.startSent =
      some (some (some [0x87, 1, 1, 0x90, 0x04, 0x7f, 0, 0, 0, 0, 0]), some [0x87, 1, 2, 0x90, 0x04, 0x7f, 0, 0, 0, 0, 0]) := by
    decide +kernel
  obtain ⟨s, hrun, hs⟩ := Option.map_eq_some_iff.mp hsent
  obtain ⟨hsent, hlast⟩ := Prod.mk.inj hs
  obtain ⟨req, hreq, hown⟩ := Option.map_eq_some_iff.mp hlast
  refine ⟨s, hrun, fun hechoes => ?_⟩
  have hack : (s.desk.2.withBehind .startChg [0]).acknowledgement .startChg =
      .ok (some [0x87, 1, 1, 0x90, 0x04, 0x7f, 0, 0, 0, 0, 0]) := by
    cases hcall : (s.desk.2.withBehind .startChg [0]).acknowledgement .startChg with
    | error stop =>
      rw [hcall] at hsent
      cases hsent
    | ok sent =>
      rw [hcall] at hsent
      cases hsent
      rfl
  have heq := hechoes .startChg (by decide) req hreq [0] _ hack
  rw [hown] at heq
  revert heq
  decide

end EnergyRouter
