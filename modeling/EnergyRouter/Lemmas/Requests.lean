import EnergyRouter.Lemmas.Build
import EnergyRouter.Lib.Calls
import EnergyRouter.Requests

/-!
# What the routines of a request do

The objects that lead to a kept request, what building an answer leaves alone (`Works`), and what the answer to a method says.
-/

namespace EnergyRouter

open Buffer Calls

variable {d d' : CharPointDataManage} {lenPosition hcsPosition i : Nat} {checksSize : Bool} {result size : Int}
    {p : ChargeStrategy} {k : Asked} {w' w₁ w₂ w₃ : Office} {stop : Stop} {data res data' l : List Byte} {head : Byte}
    {req' : Request}

/-! ## The size of the buffer -/

@[simp] theorem putBytes_size (d : CharPointDataManage) (bs : List Byte) : (putBytes d bs).size = d.size := (puts_putBytes d bs).size

@[simp] theorem putEach_size (d : CharPointDataManage) (bs : List Byte) : (putEach d bs).size = d.size := (puts_putEach d bs).size

@[simp] theorem saveCharPointData_size (d : CharPointDataManage) (position : Nat) (res : List Byte) (size : Int) :
    (saveCharPointData d position res size).2.size = d.size := by
  rw [saveCharPointData]
  split_ifs <;> rfl

@[simp] theorem skipTwo_size (d : CharPointDataManage) : (skipTwo d).size = d.size := rfl

@[simp] theorem openResponse_size (head : Byte) (d : CharPointDataManage) (control : Byte) (addr : Addr698) :
    (openResponse head d control addr).1.size = d.size := by
  simp [openResponse]

theorem closeFrame_size (h : closeFrame d lenPosition hcsPosition checksSize = some (result, d')) : d'.size = d.size := by
  simp only [closeFrame] at h
  split_ifs at h with hsize
  · cases h
    simp
  · simp only [Option.bind_eq_bind, Option.bind_eq_some_iff] at h
    obtain ⟨_, _, _, _, h⟩ := h
    cases h
    simp

/-- The loop over the slots has no outcome, wherever it starts. -/
theorem putSolts_eq_none (solts : List ChargeTimesolt) (d : CharPointDataManage) : putSolts solts d = none := by
  induction solts generalizing d with
  | nil => rfl
  | cons solt solts ih => exact ih (putSolt d solt)

theorem chargeStrategyPackage_slots (hslots : p.ucTimeSlotNum ≠ 0) (d : CharPointDataManage) :
    chargeStrategyPackage p d = none := by
  unfold chargeStrategyPackage
  rw [if_neg hslots]
  exact putSolts_eq_none _ _

/-- A plan without time slots as bytes. -/
def planBytes (p : ChargeStrategy) : List Byte :=
  [2#8, 10, 9, 16] ++ p.cRequestNO.toList.take 16 ++ [10#8, 64] ++ p.cUserID.toList.take 64 ++
    [22#8, p.ucDecMaker, 22, p.ucDecType, 28] ++ strSystemTimeToDateTimeS p.strDecTime ++ [10#8, 22] ++
    p.cAssetNO.toList.take 22 ++ 6#8 :: bytesOf32 p.ulChargeReqEle ++ 5#8 :: bytesOf32 p.ulChargeRatePow ++
    [22#8, p.ucDecType, 1, p.ucTimeSlotNum]

theorem chargeStrategyPackage_puts (hslots : p.ucTimeSlotNum = 0) (d : CharPointDataManage) :
    ∃ d', chargeStrategyPackage p d = some d' ∧ Puts (planBytes p) d d' := by
  refine ⟨_, if_pos hslots, ?_⟩
  rw [planBytes]
  exact (puts_putEach d [2, 10, 9, 16]).put _ |>.each _ |>.put _ |>.each _ |>.put _ |>.each _ |>.put _ |>.each _ |>.each _ |>.each _

/-- Plans that are written at all have no slots, and come one behind the other. -/
theorem foldlM_chargeStrategyPackage_puts {ps : List ChargeStrategy}
    (h : ps.foldlM (fun d p => chargeStrategyPackage p d) d = some d') :
    Puts (ps.flatMap planBytes) d d' ∧ ∀ p ∈ ps, p.ucTimeSlotNum = 0 := by
  induction ps generalizing d with
  | nil =>
    cases h
    exact ⟨puts_nil _, nofun⟩
  | cons p ps ih =>
    rw [List.foldlM_cons] at h
    obtain ⟨d₁, hd₁, hrest⟩ := Option.bind_eq_some_iff.mp h
    have hslots : p.ucTimeSlotNum = 0 := by
      by_contra hslots
      rw [chargeStrategyPackage_slots hslots] at hd₁
      cases hd₁
    obtain ⟨d₂, hd₂, hputs⟩ := chargeStrategyPackage_puts hslots d
    cases hd₁.symm.trans hd₂
    obtain ⟨hall, hnone⟩ := ih hrest
    exact ⟨hputs.trans hall, List.forall_mem_cons.mpr ⟨hslots, hnone⟩⟩

theorem reportCmdChgPlanExeState_size {e : ChargeExeState} {s : State698} (h : reportCmdChgPlanExeState e d s = some (result, d')) :
    d'.size = d.size := by
  simp only [reportCmdChgPlanExeState] at h
  rw [closeFrame_size h]
  simp only [putEach_size, (puts_chargeExeStatePackage e _).size, openFrame, skipTwo_size, saveCharPointData_size]

/-! ## Objects -/

/-- The request a method of the charge interface is for. -/
def Oad698.chargeMethod (o : Oad698) : Option Asked :=
  if o.oi1 = 0x01 then
    if o.attributeId = 0x7f then some .chgPlanIssue else if o.attributeId = 128 then some .chgPlanAdjust else none
  else if o.oi1 = 0x04 then
    if o.attributeId = 127 then some .startChg else if o.attributeId = 128 then some .stopChg else none
  else none

/-- The object belongs to the charge interface. -/
def Oad698.IsCharge (o : Oad698) : Prop := (o.oi0 &&& 0xf0) >>> 4 = 9 ∧ o.oi0 &&& 0x0f = 0
deriving Decidable

/-- The request a method is for. -/
def Oad698.method (o : Oad698) : Option Asked := if o.IsCharge then o.chargeMethod else none

/-- The request a frame with a single method is for. -/
def Request.asks (req : Request) : Option Asked :=
  if req.usrData[1]? = some 1 then (oadPackage req.usrData 3).bind Oad698.method else none

theorem Request.asks_eq_some {req : Request} :
    req.asks = some k ↔ req.usrData[1]? = some 1 ∧ ∃ o, oadPackage req.usrData 3 = some o ∧ o.method = some k := by
  unfold Request.asks
  split_ifs with hkind
  · simp only [hkind, true_and, Option.bind_eq_some_iff]
  · simp only [hkind, false_and]

/-- The object of the charge plan. -/
def Oad698.IsPlan (o : Oad698) : Prop := o.IsCharge ∧ o.oi1 = 0x01 ∧ o.attributeId = 2
deriving Decidable

section Fields

variable (w : Office) (bytes : List Byte)

@[simp] theorem Office.put_kept : (w.put bytes).kept = w.kept := by rw [Office.put]

@[simp] theorem Office.put_oadOmd : (w.put bytes).oadOmd = w.oadOmd := by rw [Office.put]

@[simp] theorem Office.put_dataTx : (w.put bytes).dataTx = putEach w.dataTx bytes := by rw [Office.put]

theorem Office.put_state : (w.put bytes).state = w.state := by rw [Office.put]

theorem Office.put_chargeStrategy698 : (w.put bytes).chargeStrategy698 = w.chargeStrategy698 := by rw [Office.put]

theorem Office.setNeed_dataTx (k : Asked) (need : Bool) : (w.setNeed k need).dataTx = w.dataTx := by
  rw [Office.setNeed, Office.setKept]

theorem Office.setNeed_chargeStrategy698 (k : Asked) (need : Bool) :
    (w.setNeed k need).chargeStrategy698 = w.chargeStrategy698 := by
  rw [Office.setNeed, Office.setKept]

@[simp] theorem Office.putOad_oadOmd : w.putOad.oadOmd = w.oadOmd := Office.put_oadOmd w _

@[simp] theorem Office.putObject_kept (env : Services) (cls : ObjectClass) : (w.putObject env cls).2.kept = w.kept := by
  rw [Office.putObject]

end Fields

section Objects

variable {H : Type} {env : Services} {afair : H × Office → Except Stop (H × Office)} {req : Request}

theorem oiActionResponseChargeOib_eq (h : H) (w : Office) :
    oiActionResponseChargeOib afair req (h, w) =
      match w.oadOmd.chargeMethod with
      | some k => askedCase afair k req (h, w)
      | none => .ok (-1, h, w) := by
  simp only [oiActionResponseChargeOib, Oad698.chargeMethod]
  split_ifs <;> rfl

theorem actionResponseNormalOmd_eq (h : H) (w : Office) :
    actionResponseNormalOmd afair req (h, w) =
      match w.oadOmd.method with
      | some k => askedCase afair k req (h, w.putOad)
      | none => .ok (-1, h, w.putOad) := by
  have hoib : oiActionResponseChargeOib afair req (h, w.putOad) = _ := oiActionResponseChargeOib_eq h w.putOad
  rw [Office.putOad_oadOmd] at hoib
  simp only [actionResponseNormalOmd, actionResponseChargeOia, Oad698.method, Office.putOad_oadOmd]
  by_cases hcls : (w.oadOmd.oi0 &&& 0xf0) >>> 4 = 9
  · by_cases hlow : w.oadOmd.oi0 &&& 0x0f = 0
    · have hcharge : w.oadOmd.IsCharge := ⟨hcls, hlow⟩
      rw [if_pos hcls, if_pos hlow, if_pos hcharge, hoib]
    · have hcharge : ¬ w.oadOmd.IsCharge := fun hboth => hlow hboth.2
      rw [if_pos hcls, if_neg hlow, if_neg hcharge]
  · have hcharge : ¬ w.oadOmd.IsCharge := fun hboth => hcls hboth.1
    rw [if_neg hcls, if_neg hcharge]

theorem getResponseNormalOad_of_plan {w : Office} (hplan : w.oadOmd.IsPlan) (h : H) :
    getResponseNormalOad env afair req (h, w) = askedCase afair .chgPlanIssueGet req (h, w.putOad) := by
  obtain ⟨⟨hcls, hlow⟩, hoi, hattr⟩ := hplan
  simp only [getResponseNormalOad, getResponseChargeOia, oiChargeOib, Office.putOad_oadOmd]
  rw [if_neg (by rw [hcls]; decide), if_neg (by rw [hcls]; decide), if_neg (by rw [hcls]; decide), if_pos hcls, if_pos hlow,
    if_pos hoi, if_pos hattr]

end Objects

/-! ## What building leaves alone -/

/-- Every answer to a start or a stop says success: the byte behind the method is 0. -/
def SaysSuccess (answer : Service698 × List Byte) : Prop :=
  answer.1 = .action → answer.2[4]? = some 0x04 → answer.2[7]? = some 0

/-- The transmit buffer is as large as its array, and the address is the router's. -/
structure Sound (w : Office) : Prop where
  size : w.dataTx.size = hplcDataMaxSize
  addr : w.state.addr.sAddrLen = 6

/-- What work at the desk leaves alone. Answers to a start or a stop that are added say success. -/
structure Works (w w' : Office) : Prop where
  state : w'.state = w.state
  size : w'.dataTx.size = w.dataTx.size
  data : ∀ k, (w'.kept k).usrData = (w.kept k).usrData
  answers : Sound w → (∀ a ∈ w.answers, SaysSuccess a) → ∀ a ∈ w'.answers, SaysSuccess a

theorem Works.refl (w : Office) : Works w w := ⟨rfl, rfl, fun _ => rfl, fun _ h => h⟩

theorem Works.sound {w : Office} (h : Works w w') (hw : Sound w) : Sound w' :=
  ⟨h.size.trans hw.size, by rw [h.state]; exact hw.addr⟩

theorem Works.trans (h : Works w₁ w₂) (h' : Works w₂ w₃) : Works w₁ w₃ :=
  ⟨h'.state.trans h.state, h'.size.trans h.size, fun k => (h'.data k).trans (h.data k),
    fun hw hgood => h'.answers (h.sound hw) (h.answers hw hgood)⟩

theorem Works.dataTx (w : Office) (h : d.size = w.dataTx.size) : Works w { w with dataTx := d } :=
  ⟨rfl, h, fun _ => rfl, fun _ h => h⟩

theorem Works.put (w : Office) (bytes : List Byte) : Works w (w.put bytes) := .dataTx w (putEach_size _ _)

theorem Works.oadOmd (w : Office) (oad : Oad698) : Works w { w with oadOmd := oad } :=
  ⟨rfl, rfl, fun _ => rfl, fun _ h => h⟩

theorem Works.setNeed (w : Office) (k : Asked) (need : Bool) : Works w (w.setNeed k need) := by
  refine ⟨rfl, rfl, ?_, fun _ h => h⟩
  intro j
  simp only [Office.setNeed, Office.setKept]
  split_ifs with hj
  · rw [hj]
  · rfl

theorem Works.answered {w : Office} (h : Works w w') {service : Service698}
    (hgood : Sound w → SaysSuccess (service, w'.dataTx.apdu)) : Works w (w'.answered service) := by
  refine ⟨h.state, h.size, h.data, ?_⟩
  intro hw hall a ha
  rcases List.mem_append.mp ha with ha | ha
  · exact h.answers hw hall a ha
  · rw [List.mem_singleton.mp ha]
    exact hgood hw

/-- Work that leaves the kept requests alone as well. -/
structure Writes (w w' : Office) : Prop extends Works w w' where
  kept : w'.kept = w.kept

theorem Writes.trans (h : Writes w₁ w₂) (h' : Writes w₂ w₃) : Writes w₁ w₃ :=
  ⟨h.toWorks.trans h'.toWorks, h'.kept.trans h.kept⟩

theorem Writes.dataTx (w : Office) (h : d.size = w.dataTx.size) : Writes w { w with dataTx := d } :=
  ⟨.dataTx w h, rfl⟩

theorem Writes.put (w : Office) (bytes : List Byte) : Writes w (w.put bytes) := ⟨.put w bytes, Office.put_kept w bytes⟩

theorem Writes.oadOmd (w : Office) (oad : Oad698) : Writes w { w with oadOmd := oad } := ⟨.oadOmd w oad, rfl⟩

section Objects

variable {H : Type} {env : Services} {afair : H × Office → Except Stop (H × Office)} {req : Request}

theorem Writes.putObject (w : Office) (cls : ObjectClass) : Writes w (w.putObject env cls).2 :=
  ⟨.dataTx w (puts_foldl _ _).size, Office.putObject_kept w env cls⟩

/-- A routine answers at once: it touches neither the port nor a kept request. -/
def AtOnce (h : H) (w : Office) (x : Except Stop (Int × H × Office)) : Prop :=
  ∃ result w', x = .ok (result, h, w') ∧ Writes w w'

theorem AtOnce.intro {h : H} {w : Office} (result : Int) (hwrites : Writes w w') : AtOnce h w (.ok (result, h, w')) :=
  ⟨result, w', rfl, hwrites⟩

theorem AtOnce.ite {c : Prop} [Decidable c] {h : H} {w : Office} {x y : Except Stop (Int × H × Office)} (hx : c → AtOnce h w x)
    (hy : ¬ c → AtOnce h w y) : AtOnce h w (if c then x else y) := by
  by_cases hc : c
  · rw [if_pos hc]
    exact hx hc
  · rw [if_neg hc]
    exact hy hc

theorem getResponseNormalOad_of_not_plan {w : Office} (hplan : ¬ w.oadOmd.IsPlan) (h : H) :
    AtOnce h w (getResponseNormalOad env afair req (h, w)) := by
  have hobject (cls : ObjectClass) : AtOnce h w (.ok ((w.putOad.putObject env cls).1, h, (w.putOad.putObject env cls).2)) :=
    .intro _ ((Writes.put w _).trans (.putObject _ cls))
  have hinfo : AtOnce h w (.ok (((w.putOad.put [1, 1]).putObject env .esamInfo).1, h,
      ((w.putOad.put [1, 1]).putObject env .esamInfo).2)) :=
    .intro _ (((Writes.put w _).trans (.put _ _)).trans (.putObject _ .esamInfo))
  have hnone : AtOnce h w (.ok (-1, h, w.putOad)) := .intro _ (.put w _)
  simp only [getResponseNormalOad, getResponseChargeOia, oiChargeOib, Office.putOad_oadOmd]
  refine .ite (fun _ => hobject .electrical) fun _ => .ite (fun _ => hobject .variable) fun _ =>
    .ite (fun _ => hobject .parameter) fun _ => .ite (fun hcls => ?_) fun _ => .ite (fun _ => hobject .esam) fun _ => hnone
  refine .ite (fun hlow => ?_) fun _ => hnone
  refine .ite (fun hoi => ?_) fun _ => .ite (fun _ => .ite (fun _ => hinfo) fun _ => hnone) fun _ => hnone
  exact .ite (fun hattr => absurd ⟨⟨hcls, hlow⟩, hoi, hattr⟩ hplan) fun _ => hnone

end Objects

/-! ## The two passes -/

variable {fine : Stop → Prop}

theorem orStop_finishes {α : Type} (hstop : fine stop) {post : α → Prop} {x : Option α} (hpost : ∀ a, x = some a → post a) :
    Finishes fine post (orStop stop x) := by
  cases x with
  | some a => exact hpost a rfl
  | none => exact hstop

theorem orStop_eq_ok {α : Type} {x : Option α} {a : α} (h : orStop stop x = .ok a) : x = some a := by
  cases x with
  | some b =>
    cases h
    rfl
  | none => cases h

theorem Request.usr_finishes (houtside : fine .outside) (req : Request) (i : Int) : Finishes fine (fun _ => True) (req.usr i) := by
  unfold Request.usr
  split_ifs
  · exact houtside
  · exact orStop_finishes houtside fun _ _ => trivial

theorem Request.getElem?_of_usr {req : Request} {b : Byte} (h : req.usr i = .ok b) : req.usrData[i]? = some b := by
  rw [Request.usr, if_neg (by omega), Int.toNat_natCast] at h
  exact orStop_eq_ok h

theorem putRsp_finishes (houtside : fine .outside) (rsp : ChargeStrategyRsp) (w : Office) :
    Finishes fine (Works w) (putRsp rsp w) := by
  simp only [putRsp]
  split_ifs with hlen
  · exact .dataTx w (by simp only [putEach_size, putBytes_size])
  · exact houtside

theorem putOutcome_finishes (houtside : fine .outside) (k : Asked) (w : Office) :
    Finishes fine (fun p => Works w p.2) (putOutcome k w) := by
  cases k with
  | chgPlanIssue => exact (putRsp_finishes houtside _ w).bind fun w' _ hw' => hw'
  | chgPlanAdjust => exact (putRsp_finishes houtside _ w).bind fun w' _ hw' => hw'
  | startChg => exact Works.put w _
  | stopChg => exact Works.put w _
  | chgPlanIssueGet =>
    have hput : Works w ((w.put [1, 1]).put [BitVec.ofNat 8 (w.put [1, 1]).chargeStrategy698.length]) :=
      (Works.put w _).trans (.put _ _)
    simp only [putOutcome, oiChargeStrategyPackage]
    split_ifs with hnone
    · exact hput
    · exact (orStop_finishes houtside fun d hd => (foldlM_chargeStrategyPackage_puts hd).1.size).bind fun d _ hd => hput.trans (.dataTx _ hd)

/-- The user data of a request are saved over the front of the array, or the array stays as it is. -/
theorem saveCharPointUsrdata_cases (h : saveCharPointUsrdata data res size = some data') :
    (data' = data ∧ ¬ (0 ≤ size ∧ size < data.length)) ∨
      ((0 ≤ size ∧ size < data.length) ∧ size.toNat ≤ res.length ∧ data' = res.take size.toNat ++ data.drop size.toNat) := by
  rw [saveCharPointUsrdata] at h
  split_ifs at h with hneg hfits hlong
  · exact .inl ⟨(Option.some.inj h).symm, by omega⟩
  · exact .inr ⟨⟨by omega, by omega⟩, hlong, (Option.some.inj h).symm⟩
  · exact .inl ⟨(Option.some.inj h).symm, by omega⟩

theorem saveCharPointUsrdata_length (h : saveCharPointUsrdata data res size = some data') : data'.length = data.length := by
  rcases saveCharPointUsrdata_cases h with ⟨rfl, _⟩ | ⟨hfits, hlong, rfl⟩
  · rfl
  · rw [List.length_append, List.length_take_of_le hlong, List.length_drop]
    omega

/-- What keeping a request changes: the user data of that one, and the records of plans. -/
structure Keeping (k : Asked) (req : Request) (w w' : Office) : Prop where
  state : w'.state = w.state
  dataTx : w'.dataTx = w.dataTx
  answers : w'.answers = w.answers
  data : saveCharPointUsrdata (w.kept k).usrData req.usrData req.usrDataLen = some (w'.kept k).usrData
  other : ∀ j, j ≠ k → w'.kept j = w.kept j

theorem Keeping.sound {req : Request} {w : Office} (h : Keeping k req w w') (hw : Sound w) : Sound w' := by
  refine ⟨?_, ?_⟩
  · rw [h.dataTx]
    exact hw.size
  · rw [h.state]
    exact hw.addr

theorem storePlan_finishes (houtside : fine .outside) (k : Asked) (req : Request) (w : Office) :
    Finishes fine (fun w' => w'.state = w.state ∧ w'.dataTx = w.dataTx ∧ w'.answers = w.answers ∧ w'.kept = w.kept)
      (storePlan k req w) := by
  cases k with
  | chgPlanIssue => exact (orStop_finishes houtside fun _ _ => trivial).bind fun _ _ _ => ⟨rfl, rfl, rfl, rfl⟩
  | chgPlanAdjust => exact (orStop_finishes houtside fun _ _ => trivial).bind fun _ _ _ => ⟨rfl, rfl, rfl, rfl⟩
  | _ => exact ⟨rfl, rfl, rfl, rfl⟩

theorem keepRequest_finishes (houtside : fine .outside) (hmask : fine .strategyLock) (k : Asked) (req : Request) (w : Office) :
    Finishes fine (Keeping k req w) (keepRequest k req w) := by
  refine (orStop_finishes houtside fun kept hkept => hkept).bind fun kept _ hkept => ?_
  refine (storePlan_finishes houtside k req _).bind fun w₁ _ hw₁ => ?_
  refine (orStop_finishes hmask fun _ _ => trivial).bind fun mask _ _ => ?_
  obtain ⟨hstate, hdata, hanswers, hsame⟩ := hw₁
  obtain ⟨data, hcopy, hkept⟩ := Option.bind_eq_some_iff.mp hkept
  cases hkept
  refine ⟨hstate, hdata, hanswers, ?_, ?_⟩
  · rw [hcopy]
    simp only [hsame, Office.setKept, if_true]
    split_ifs <;> rfl
  · intro j hj
    simp only [hsame, Office.setKept, if_neg hj]

/-! ## Rules for the routines -/

/-- A property of the desk that looks neither at what is written nor at the object the answer is about. -/
def Steady {H : Type} (P : H × Office → Prop) : Prop := ∀ h w w', Writes w w' → P (h, w) → P (h, w')

section Rules

variable {H : Type} {P Q : H × Office → Prop} {env : Services} {afair : H × Office → Except Stop (H × Office)} {req : Request}

theorem inFrame_finishes (houtside : fine .outside) (hP : Steady P) (hQ : Steady Q)
    {body : H × Office → Except Stop (Int × H × Office)} (hbody : ∀ h w, P (h, w) → Finishes fine (fun p => Q p.2) (body (h, w)))
    {h : H} {w : Office} (hw : P (h, w)) : Finishes fine (fun p => Q p.2) (inFrame head body (h, w)) := by
  simp only [inFrame]
  refine (hbody h _ (hP h w _ (.dataTx w (openResponse_size _ _ _ _)) hw)).bind fun ⟨result, h', w'⟩ _ hp => ?_
  refine .ite (fun _ => ?_) fun _ => hp
  refine (orStop_finishes houtside fun q hq => closeFrame_size hq).bind fun q _ hq => ?_
  exact hQ _ _ _ (.dataTx _ hq) hp

/-- The user data of a request and their length; the place of the time tag changes while it is served. -/
def Request.SameData (req req' : Request) : Prop := req'.usrData = req.usrData ∧ req'.usrDataLen = req.usrDataLen

theorem Keeping.of_sameData {req : Request} {w : Office} (hsame : req.SameData req') (h : Keeping k req' w w') :
    Keeping k req w w' := by
  obtain ⟨hstate, hdataTx, hanswers, hdata, hother⟩ := h
  rw [hsame.1, hsame.2] at hdata
  exact ⟨hstate, hdataTx, hanswers, hdata, hother⟩

theorem askedCase_finishes (houtside : fine .outside) (hmask : fine .strategyLock) {h : H} {w : Office}
    (hsecond : (w.kept k).needPackage = true → ∀ w', Works w w' → Q (h, w')) (hfirst : (w.kept k).needPackage = false →
      Finishes fine (fun st => ∀ w', Keeping k req st.2 w' → Q (st.1, w')) (afair (h, w))) :
    Finishes fine (fun p => Q p.2) (askedCase afair k req (h, w)) := by
  simp only [askedCase]
  refine .ite (fun hneed => ?_) fun hneed => ?_
  · refine (putOutcome_finishes houtside k (w.setNeed k false)).bind fun p _ hp => ?_
    exact hsecond hneed _ ((Works.setNeed w k false).trans hp)
  · refine (orStop_finishes hmask fun _ _ => trivial).bind fun _ _ _ => ?_
    refine (hfirst (Bool.eq_false_of_not_eq_true hneed)).bind fun st _ hst => ?_
    exact (keepRequest_finishes houtside hmask k req st.2).bind fun w' _ hw' => hst w' hw'

theorem actionResponsePackage_finishes (houtside : fine .outside) (hP : Steady P) (hQ : Steady Q)
    (hnone : req.asks = none → ∀ st, P st → Q st)
    (hcase : ∀ k, req.asks = some k → ∀ req', req.SameData req' →
      ∀ h w, P (h, w) → Finishes fine (fun p => Q p.2) (askedCase afair k req' (h, w)))
    {h : H} {w : Office} (hw : P (h, w)) : Finishes fine (fun p => Q p.2) (actionResponsePackage afair req (h, w)) := by
  refine inFrame_finishes houtside hP hQ (fun h w hw => ?_) hw
  refine (req.usr_finishes houtside 1).bind fun kind hkind _ => ?_
  have hfirst : req.usrData[1]? = some kind := Request.getElem?_of_usr hkind
  by_cases hone : kind = 1
  swap
  · rw [if_neg hone]
    refine hnone ?_ _ hw
    rw [Request.asks, hfirst, if_neg fun heq => hone (Option.some.inj heq)]
  have hasks : req.asks = (oadPackage req.usrData 3).bind Oad698.method := by rw [Request.asks, hfirst, hone, if_pos rfl]
  rw [if_pos hone]
  simp only [actionResponsePackageNormal]
  refine (req.usr_finishes houtside 1).bind fun kind _ _ => (req.usr_finishes houtside 2).bind fun piid _ _ => ?_
  generalize hreq' : (if req.needPackage then req else { req with timeFlagPositon := 3 + 4 }) = req'
  have hsame : req.SameData req' := by
    rw [← hreq']
    split_ifs <;> exact ⟨rfl, rfl⟩
  rw [hsame.1]
  refine (orStop_finishes houtside fun oad hoad => hoad).bind fun oad _ hoad => ?_
  have hput := hP h w _ ((Writes.put w [0x87, kind, piid]).trans (.oadOmd _ oad)) hw
  have homd : Finishes fine (fun p => Q p.2)
      (actionResponseNormalOmd afair req' (h, { w.put [0x87, kind, piid] with oadOmd := oad })) := by
    rw [hoad, Option.bind_some] at hasks
    rw [actionResponseNormalOmd_eq]
    cases hmethod : oad.method with
    | none => exact hnone (hasks.trans hmethod) _ (hP h _ _ (.put _ _) hput)
    | some k => exact hcase k (hasks.trans hmethod) req' hsame h _ (hP h _ _ (.put _ _) hput)
  refine homd.bind fun ⟨result, h', w'⟩ _ hp => .ite (fun _ => ?_) fun _ => hp
  refine (req'.usr_finishes houtside _).bind fun flag _ _ => ?_
  exact .ite (fun _ => hQ _ _ _ ((Writes.put w' _).trans (.put _ _)) hp) fun _ => hQ _ _ _ (.put w' _) hp

theorem getResponseNormalOad_finishes {h : H} {w : Office} (hP : Steady P) (hw : P (h, w))
    (hplan : w.oadOmd.IsPlan → ∀ w', P (h, w') → Finishes fine (fun p => Q p.2) (askedCase afair .chgPlanIssueGet req (h, w')))
    (hother : ¬ w.oadOmd.IsPlan → ∀ w', P (h, w') → Q (h, w')) :
    Finishes fine (fun p => Q p.2) (getResponseNormalOad env afair req (h, w)) := by
  by_cases hisPlan : w.oadOmd.IsPlan
  · rw [getResponseNormalOad_of_plan hisPlan]
    exact hplan hisPlan _ (hP h w _ (.put w _) hw)
  · obtain ⟨result, w', hw', hwrites⟩ := getResponseNormalOad_of_not_plan hisPlan h
    rw [hw']
    exact hother hisPlan w' (hP h w w' hwrites hw)

theorem oadLoop_finishes (houtside : fine .outside) {P : Nat → H × Office → Prop} (n : Nat)
    (hstep : ∀ i oad, oadPackage req.usrData (4 + 4 * i) = some oad → i < n → ∀ h w, P i (h, w) →
      Finishes fine (fun p => P (i + 1) p.2) (getResponseNormalOad env afair req (h, { w with oadOmd := oad })))
    (m i : Nat) (hm : i + m = n) {h : H} {w : Office} (hw : P i (h, w)) :
    Finishes fine (fun p => P n p.2) (oadLoop env afair req m i (result, h, w)) := by
  induction m generalizing i result h w with
  | zero =>
    rw [Nat.add_zero] at hm
    rw [hm] at hw
    exact hw
  | succ m ih =>
    refine (orStop_finishes houtside fun oad hoad => hoad).bind fun oad _ hoad => ?_
    refine (hstep i oad hoad (by omega) h w hw).bind fun ⟨result', h', w'⟩ _ hp => ?_
    exact ih (i + 1) (by omega) hp

theorem getResponsePackage_finishes (houtside : fine .outside) (hP : Steady P) (hQ : Steady Q) (himp : ∀ st, P st → Q st)
    (hone : req.usr 1 = .ok 1 → ∀ oad, oadPackage req.usrData 3 = some oad → ∀ h w, P (h, w) →
      Finishes fine (fun p => Q p.2) (getResponseNormalOad env afair req (h, { w with oadOmd := oad })))
    (hlist : req.usr 1 = .ok 2 → ∀ count, req.usr 3 = .ok count → ∀ h w, P (h, w) →
      Finishes fine (fun p => Q p.2) (oadLoop env afair req count.toNat 0 (1, h, w)))
    {h : H} {w : Office} (hw : P (h, w)) : Finishes fine (fun p => Q p.2) (getResponsePackage env afair req (h, w)) := by
  refine inFrame_finishes houtside hP hQ (fun h w hw => ?_) hw
  refine (req.usr_finishes houtside 1).bind fun kind hkind _ =>
    .ite (fun hone' => ?_) fun _ => .ite (fun hlist' => ?_) fun _ => himp _ hw
  · simp only [getResponsePackageNormal]
    refine (req.usr_finishes houtside 1).bind fun kind _ _ => (req.usr_finishes houtside 2).bind fun piid _ _ => ?_
    refine (orStop_finishes houtside fun oad hoad => hoad).bind fun oad _ hoad => ?_
    have hput := hP h w _ (Writes.put w [0x85, kind, piid]) hw
    refine (hone (hone' ▸ hkind) oad hoad h _ hput).bind fun ⟨result, h', w'⟩ _ hp => .ite (fun _ => ?_) fun _ => hp
    refine (req.usr_finishes houtside _).bind fun flag _ _ => ?_
    exact .ite (fun _ => hQ _ _ _ ((Writes.put w' _).trans (.put _ _)) hp) fun _ => hQ _ _ _ (.put w' _) hp
  · simp only [getResponsePackageNormalList]
    refine (req.usr_finishes houtside 3).bind fun count hcount _ => (req.usr_finishes houtside 1).bind fun kind _ _ =>
      (req.usr_finishes houtside 2).bind fun piid _ _ => ?_
    have hput := hP h w _ (Writes.put w [0x85, kind, piid, count]) hw
    refine (hlist (hlist' ▸ hkind) count hcount h _ hput).bind fun ⟨result, h', w'⟩ _ hp => ?_
    exact .ite (fun _ => hQ _ _ _ (.put w' _) hp) fun _ => hp

end Rules

/-! ## Serving a request -/

/-- What it takes for a property of the desk to last through the serving of a request. -/
structure Serving {H : Type} (fine : Stop → Prop) (D : H × Office → Prop) (afair : H × Office → Except Stop (H × Office)) : Prop where
  outside : fine .outside
  strategyLock : fine .strategyLock
  works : ∀ h w w', Works w w' → D (h, w) → D (h, w')
  afair : ∀ st, D st → Finishes fine D (afair st)

section Serving

variable {H : Type} {D : H × Office → Prop} {env : Services} {afair : H × Office → Except Stop (H × Office)} {req : Request}

theorem Serving.steady (hs : Serving fine D afair) : Steady D := fun h w w' hwrites => hs.works h w w' hwrites.toWorks

theorem Serving.askedCase (hs : Serving fine D afair) (hsame : req.SameData req')
    (hkeep : ∀ h w w', Keeping k req w w' → D (h, w) → D (h, w')) {h : H} {w : Office} (hD : D (h, w)) :
    Finishes fine (fun p => D p.2) (askedCase afair k req' (h, w)) := by
  refine askedCase_finishes hs.outside hs.strategyLock (fun _ w' hw' => hs.works h w w' hw' hD) fun _ => ?_
  exact (hs.afair (h, w) hD).imp fun st hst w' hw' => hkeep st.1 st.2 w' (hw'.of_sameData hsame) hst

theorem Serving.actionResponsePackage (hs : Serving fine D afair)
    (hmethod : ∀ k, req.asks = some k → ∀ h w w', Keeping k req w w' → D (h, w) → D (h, w'))
    {h : H} {w : Office} (hD : D (h, w)) : Finishes fine (fun p => D p.2) (actionResponsePackage afair req (h, w)) := by
  refine actionResponsePackage_finishes hs.outside hs.steady hs.steady (fun _ _ => id) ?_ hD
  intro k hk req' hsame h w hD
  exact hs.askedCase hsame (hmethod k hk) hD

theorem Serving.getResponsePackage (hs : Serving fine D afair)
    (hplan : ∀ h w w', Keeping .chgPlanIssueGet req w w' → D (h, w) → D (h, w'))
    {h : H} {w : Office} (hD : D (h, w)) : Finishes fine (fun p => D p.2) (getResponsePackage env afair req (h, w)) := by
  have hobject : ∀ oad h w, D (h, w) →
      Finishes fine (fun p => D p.2) (getResponseNormalOad env afair req (h, { w with oadOmd := oad })) := by
    intro oad h w hD
    refine getResponseNormalOad_finishes hs.steady (hs.steady h w _ (.oadOmd w oad) hD) ?_ fun _ _ => id
    exact fun _ w' hw' => hs.askedCase ⟨rfl, rfl⟩ hplan hw'
  refine getResponsePackage_finishes hs.outside hs.steady hs.steady (fun _ => id) (fun _ oad _ => hobject oad) ?_ hD
  intro _ count _ h w hD
  refine oadLoop_finishes hs.outside (P := fun _ => D) count.toNat ?_ count.toNat 0 (Nat.zero_add _) hD
  exact fun _ oad _ _ => hobject oad

end Serving

/-! ## What the answer to a method says -/

/-- The second byte of the object a method belongs to. -/
def Asked.oi1 : Asked → Byte
  | chgPlanIssue | chgPlanIssueGet | chgPlanAdjust => 0x01
  | startChg | stopChg => 0x04

/-- The number of a method. -/
def Asked.attributeId : Asked → Byte
  | chgPlanIssue | startChg => 0x7f
  | chgPlanAdjust | stopChg => 128
  | chgPlanIssueGet => 2

theorem Oad698.bytes_of_method {o : Oad698} (h : o.method = some k) :
    o.oi1 = k.oi1 ∧ o.attributeId = k.attributeId ∧ k ≠ .chgPlanIssueGet := by
  unfold Oad698.method Oad698.chargeMethod at h
  split_ifs at h <;> cases h <;> exact ⟨by assumption, by assumption, nofun⟩

theorem closeFrame_apdu (h : closeFrame d 1 12 checksSize = some (0, d')) (husr : d.frame698.usrData = 14)
    (hsize : d.dataSize + 2 ≤ 1024) (hi : 14 + i < d.dataSize) :
    d'.apdu[i]? = d.priveData[14 + i]? := by
  have hend : (putEach (skipTwo d) [0x16]).priveData[14 + i]? = d.priveData[14 + i]? :=
    (puts_putEach (skipTwo d) [0x16]).cells _ (by rw [skipTwo]; dsimp only; omega)
  simp only [closeFrame] at h
  split_ifs at h with hlong
  · exact absurd (Prod.mk.inj (Option.some.inj h)).1 (by decide)
  rw [tryfcs16_eq _ 12 (by omega) (by rw [hplcDataMaxSize]; omega)] at h
  simp only [Option.bind_eq_bind, Option.bind_some] at h
  rw [tryfcs16_eq _ d.dataSize (by omega) (by rw [hplcDataMaxSize]; omega)] at h
  simp only [Option.bind_some, Option.some.injEq, Prod.mk.injEq, true_and] at h
  rw [← h, CharPointDataManage.apdu]
  dsimp only
  rw [husr, List.getElem?_take_of_lt (by omega), List.getElem?_drop, Vector.getElem?_toList, getElem?_copyAt _ _ _ (.inl hi),
    getElem?_copyAt _ _ _ (.inr ?_), Vector.getElem?_setIfInBounds_ne (by omega), Vector.getElem?_setIfInBounds_ne (by omega), hend]
  show 12 + 2 ≤ 14 + i
  omega

theorem Stored.getElem?_eq (h : Stored l d) (hle : l.length ≤ 1023) (hi : i < l.length) : d.priveData[i]? = l[i]? := by
  rw [← front_getElem? d.priveData (h.dataSize_eq hle ▸ hi : i < d.dataSize), ← CharPointDataManage.contents, h.contents,
    kept_of_le hle]

theorem closeFrame_frame698 (h : closeFrame d lenPosition hcsPosition checksSize = some (result, d')) :
    d'.frame698.usrData = d.frame698.usrData ∧ d'.frame698.usrDataLen = (d.dataSize : Int) - hcsPosition - 2 := by
  simp only [closeFrame] at h
  split_ifs at h with hsize
  · cases h
    exact ⟨rfl, rfl⟩
  · simp only [Option.bind_eq_bind, Option.bind_eq_some_iff] at h
    obtain ⟨_, _, _, _, h⟩ := h
    cases h
    exact ⟨rfl, rfl⟩

theorem closeFrame_apdu_eq {body : List Byte} (h : closeFrame d 1 12 checksSize = some (0, d')) (husr : d.frame698.usrData = 14)
    (hl : l.length = 14) (hdata : Stored (l ++ body) d) (hlen : body.length ≤ 1000) : d'.apdu = body := by
  have hall : (l ++ body).length = 14 + body.length := by rw [List.length_append, hl]
  have hsize : d.dataSize = 14 + body.length := (hdata.dataSize_eq (by omega)).trans hall
  refine List.ext_getElem? fun i => ?_
  by_cases hi : i < body.length
  · rw [closeFrame_apdu h husr (by omega) (by omega), hdata.getElem?_eq (by omega) (by omega), ← hl,
      List.getElem?_append_right (Nat.le_add_right _ _), Nat.add_sub_cancel_left]
  · have hshort : d'.apdu.length ≤ body.length := by
      refine List.length_take_le _ _ |>.trans ?_
      rw [(closeFrame_frame698 h).2, hsize]
      omega
    rw [List.getElem?_eq_none (by omega), List.getElem?_eq_none (by omega)]

/-- The answer to a plan as bytes. -/
def rspBytes (rsp : ChargeStrategyRsp) : List Byte :=
  [rsp.cSucIdle, 2, 2, 9, rsp.cRequestNO.getD 0 0] ++ (rsp.cRequestNO.toList.drop 1).take (rsp.cRequestNO.getD 0 0).toNat ++
    [10, rsp.cAssetNO.getD 0 0] ++ (rsp.cAssetNO.toList.drop 1).take (rsp.cAssetNO.getD 0 0).toNat

theorem putRsp_puts {rsp : ChargeStrategyRsp} {w : Office} (hok : putRsp rsp w = .ok w') :
    Puts (rspBytes rsp) w.dataTx w'.dataTx ∧ (rspBytes rsp).length ≤ 60 := by
  simp only [putRsp] at hok
  split_ifs at hok with hlen
  cases hok
  constructor
  · dsimp only
    rw [rspBytes]
    exact (puts_putEach w.dataTx _).put _ |>.each _ |>.put _
  · simp [rspBytes]
    omega

section Answers

variable {H : Type} {afair : H × Office → Except Stop (H × Office)} {req : Request}

/-- A case that returns is the second pass of its request, or the first one. -/
theorem askedCase_eq_ok {h h' : H} {w : Office} (hok : askedCase afair k req (h, w) = .ok (result, h', w')) :
    ((w.kept k).needPackage = true ∧ putOutcome k (w.setNeed k false) = .ok (result, w')) ∨
      ((w.kept k).needPackage = false ∧ result = 2 ∧ ∃ w₁, afair (h, w) = .ok (h', w₁) ∧ Keeping k req w₁ w') := by
  simp only [askedCase] at hok
  split_ifs at hok with hneed
  · obtain ⟨⟨result, w''⟩, hput, hok⟩ := bind_eq_ok hok
    cases hok
    exact .inl ⟨hneed, hput⟩
  · obtain ⟨_, _, hok⟩ := bind_eq_ok hok
    obtain ⟨⟨h₁, w₁⟩, hcall, hok⟩ := bind_eq_ok hok
    obtain ⟨w₂, hkeep, hok⟩ := bind_eq_ok hok
    cases hok
    have hkeeping : Finishes (fun _ => True) (Keeping k req w₁) (keepRequest k req w₁) := keepRequest_finishes trivial trivial _ _ _
    exact .inr ⟨Bool.eq_false_of_not_eq_true hneed, rfl, w₁, hcall, hkeeping.post_of_ok hkeep⟩

/-- An answer that is sent is a frame closed around what its body wrote. -/
theorem inFrame_eq_zero {body : H × Office → Except Stop (Int × H × Office)} {h h' : H} {w : Office} (hw : Sound w)
    (hok : inFrame head body (h, w) = .ok (0, h', w')) :
    ∃ l d w₁ d', l.length = 14 ∧ Stored l d ∧ d.frame698.usrData = 14 ∧ body (h, { w with dataTx := d }) = .ok (0, h', w₁) ∧
      closeFrame w₁.dataTx 1 12 false = some (0, d') ∧ w'.dataTx = d' := by
  obtain ⟨⟨g₁, g₂, g₃, g₄, hstored⟩, hpos, husr⟩ := openResponse_stored head hw.size (0xc0 ||| 0x03)
    (show (copiedAddr w.dataTx w.state.addr w.state.addr.ca).sAddrLen = 6 from hw.addr)
  simp only [inFrame, hpos] at hok
  obtain ⟨⟨result, h₁, w₁⟩, hbody, hok⟩ := bind_eq_ok hok
  dsimp only at hok
  split_ifs at hok with hresult
  · obtain ⟨⟨result', d'⟩, hclose, hok⟩ := bind_eq_ok hok
    cases hok
    rw [hresult] at hbody
    refine ⟨_, _, w₁, d', ?_, hstored, husr, hbody, orStop_eq_ok hclose, rfl⟩
    simp
  · cases hok
    exact absurd rfl hresult

/-- What the second pass of a method stores: two zero bytes for a start or a stop. -/
theorem putOutcome_puts (hk : k ≠ .chgPlanIssueGet) {w : Office} (hok : putOutcome k w = .ok (result, w')) :
    ∃ bs, bs.length ≤ 60 ∧ (k.oi1 = 0x04 → bs = [0, 0]) ∧ Puts bs w.dataTx w'.dataTx := by
  have hzero : w' = w.put [0, 0] → Puts [0, 0] w.dataTx w'.dataTx := by
    intro hput
    rw [hput, Office.put_dataTx]
    exact puts_putEach _ _
  have hrsp (rsp : ChargeStrategyRsp) (hok : (putRsp rsp w).bind (fun w₁ => .ok (0, w₁)) = .ok (result, w')) :
      (rspBytes rsp).length ≤ 60 ∧ (0x01#8 = 0x04#8 → rspBytes rsp = [0, 0]) ∧ Puts (rspBytes rsp) w.dataTx w'.dataTx := by
    obtain ⟨w'', hput, hok⟩ := bind_eq_ok hok
    cases hok
    exact ⟨(putRsp_puts hput).2, (by rintro ⟨⟩), (putRsp_puts hput).1⟩
  cases k with
  | chgPlanIssue => exact ⟨_, hrsp _ hok⟩
  | chgPlanAdjust => exact ⟨_, hrsp _ hok⟩
  | startChg => exact ⟨[0, 0], by decide, fun _ => rfl, hzero (Prod.mk.inj (Except.ok.inj hok)).2.symm⟩
  | stopChg => exact ⟨[0, 0], by decide, fun _ => rfl, hzero (Prod.mk.inj (Except.ok.inj hok)).2.symm⟩
  | chgPlanIssueGet => exact absurd rfl hk

/-- The bytes of an answer to a method: its kind, the object and what the second pass stored. -/
theorem actionResponsePackageNormal_puts {h h' : H} {w : Office}
    (hok : actionResponsePackageNormal afair req (h, w) = .ok (0, h', w')) :
    ∃ kind piid oad k bs, req.usr 1 = .ok kind ∧ req.usr 2 = .ok piid ∧ oadPackage req.usrData 3 = some oad ∧
      bs.length ≤ 60 ∧ oad.oi1 = Asked.oi1 k ∧ (k.oi1 = 0x04 → bs = [0, 0]) ∧
      Puts ([0x87, kind, piid, oad.oi0, oad.oi1, oad.attributeId, oad.attributeIndex] ++ bs ++ [0] ++ [0]) w.dataTx w'.dataTx := by
  simp only [actionResponsePackageNormal] at hok
  generalize hreq' : (if req.needPackage then req else { req with timeFlagPositon := 3 + 4 }) = req' at hok
  have hsame : req'.usrData = req.usrData := by
    rw [← hreq']
    split_ifs <;> rfl
  obtain ⟨kind, hkind, hok⟩ := bind_eq_ok hok
  obtain ⟨piid, hpiid, hok⟩ := bind_eq_ok hok
  obtain ⟨oad, hoad, hok⟩ := bind_eq_ok hok
  rw [hsame] at hoad
  obtain ⟨⟨result, h₁, w₁⟩, homd, hok⟩ := bind_eq_ok hok
  dsimp only at hok
  split_ifs at hok with hresult
  · obtain ⟨flag, _, hok⟩ := bind_eq_ok hok
    split_ifs at hok with hflag
    · have hw' : w' = (w₁.put [0]).put [0] := (Prod.mk.inj (Prod.mk.inj (Except.ok.inj hok)).2).2.symm
      rw [hresult, actionResponseNormalOmd_eq] at homd
      dsimp only at homd
      cases hmethod : oad.method with
      | none =>
        rw [hmethod] at homd
        exact absurd (Prod.mk.inj (Except.ok.inj homd)).1 (by decide)
      | some k =>
        rw [hmethod] at homd
        obtain ⟨hoi, _, hk⟩ := Oad698.bytes_of_method hmethod
        obtain ⟨-, hput⟩ | ⟨-, htwo, -⟩ := askedCase_eq_ok homd
        swap
        · cases htwo
        obtain ⟨bs, hbs, hzero, hputs⟩ := putOutcome_puts hk hput
        have hdata : ({ w.put [0x87, kind, piid] with oadOmd := oad }.putOad.setNeed k false).dataTx =
            putEach (putEach w.dataTx [0x87, kind, piid]) [oad.oi0, oad.oi1, oad.attributeId, oad.attributeIndex] := by
          rw [Office.setNeed_dataTx, Office.putOad, Office.put_dataTx]
          dsimp only
          rw [Office.put_dataTx]
        rw [hdata] at hputs
        refine ⟨kind, piid, oad, k, bs, hkind, hpiid, orStop_eq_ok hoad, hbs, hoi, hzero, ?_⟩
        rw [hw', Office.put_dataTx, Office.put_dataTx]
        exact (((puts_putEach w.dataTx [0x87, kind, piid]).each _).trans hputs).each [0] |>.each [0]
    · exact absurd (Prod.mk.inj (Except.ok.inj hok)).1 (by decide)
  · exact absurd (Prod.mk.inj (Except.ok.inj hok)).1 hresult

/-- The user data of an answer to a method: kind, number and object of the request, and what the second pass stored. -/
theorem actionResponsePackage_apdu {h h' : H} {w : Office} (hw : Sound w)
    (hok : actionResponsePackage afair req (h, w) = .ok (0, h', w')) :
    ∃ kind piid oad bs, req.usr 1 = .ok kind ∧ req.usr 2 = .ok piid ∧ oadPackage req.usrData 3 = some oad ∧
      (oad.oi1 = 0x04 → bs = [0, 0]) ∧
      w'.dataTx.apdu = [0x87, kind, piid, oad.oi0, oad.oi1, oad.attributeId, oad.attributeIndex] ++ bs ++ [0] ++ [0] := by
  obtain ⟨l, d, w₁, d', hl, hstored, husr, hbody, hclose, hd'⟩ := inFrame_eq_zero hw hok
  obtain ⟨kind, _, hbody⟩ := bind_eq_ok hbody
  split_ifs at hbody with hkind
  · obtain ⟨u₁, u₂, oad, k, bs, hu₁, hu₂, hoad, hbs, hoi, hzero, hputs⟩ := actionResponsePackageNormal_puts hbody
    refine ⟨u₁, u₂, oad, bs, hu₁, hu₂, hoad, fun hcharge => hzero (hoi ▸ hcharge), ?_⟩
    rw [hd']
    exact closeFrame_apdu_eq hclose (hputs.frame698 ▸ husr) hl (hputs.stored hstored (by simp; omega)) (by simp; omega)
  · exact absurd (Prod.mk.inj (Except.ok.inj hbody)).1 (by decide)

/-- Every answer to a start or a stop says success. -/
theorem actionResponsePackage_saysSuccess {h h' : H} {w : Office} (hw : Sound w)
    (hok : actionResponsePackage afair req (h, w) = .ok (0, h', w')) : SaysSuccess (.action, w'.dataTx.apdu) := by
  obtain ⟨kind, piid, oad, bs, _, _, _, hzero, hapdu⟩ := actionResponsePackage_apdu hw hok
  intro _ hmethod
  rw [hapdu] at hmethod ⊢
  rw [hzero (Option.some.inj hmethod)]
  rfl

end Answers

theorem receivedApdu_apdu {apdu : List Byte} (h : 14 + apdu.length ≤ hplcDataMaxSize) : (receivedApdu apdu).apdu = apdu :=
  Buffer.mid_copyAt zeroBuffer.priveData 14 apdu h

end EnergyRouter
