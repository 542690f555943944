import EnergyRouter.Lemmas.Requests

/-!
# What happens at the desk

The second pass of a kept request, which runs while the flags are set, and `check_afair_from_botom` around it. A call that waits for
the flags is tolerated (`fine .lock`) or excluded by what the kept requests are about (`Safe`).
-/

namespace EnergyRouter

open Calls

variable {k : Asked} {req : Request} {w w' w₀ : Office} {data : List Byte} {i count : Nat} {o : Oad698} {desk : Desk}

variable {fine : Stop → Prop}

/-! ## While the flags are set -/

/-- The case of a request whose `need_package` is set does not come to the call that waits. -/
theorem askedCase_held (houtside : fine .outside) (hmask : fine .strategyLock)
    (hneed : (w.kept k).needPackage = true ∨ fine .lock) :
    Finishes fine (fun p => Works w p.2.2) (askedCase waitForLock k req ((), w)) := by
  refine askedCase_finishes houtside hmask (Q := fun st => Works w st.2) (fun _ _ => id) fun hnot => ?_
  exact hneed.resolve_left (by rw [hnot]; exact Bool.false_ne_true)

/-- The user data kept for a method name no other one: the object's bytes are its own, or still the initial ones. -/
def OwnBytes (k : Asked) (data : List Byte) : Prop :=
  (data.getD 4 0 = k.initialData.getD 4 0 ∨ data.getD 4 0 = k.oi1) ∧
    (data.getD 5 0 = k.initialData.getD 5 0 ∨ data.getD 5 0 = k.attributeId)

theorem oadPackage_eq (h : oadPackage data i = some o) :
    o = ⟨data.getD i 0, data.getD (i + 1) 0, data.getD (i + 2) 0, data.getD (i + 3) 0⟩ := by
  simp only [oadPackage, Option.bind_eq_bind, Option.bind_eq_some_iff] at h
  obtain ⟨oi0, hoi0, oi1, hoi1, attr, hattr, index, hindex, h⟩ := h
  cases h
  simp only [List.getD_eq_getElem?_getD, hoi0, hoi1, hattr, hindex, Option.getD_some]

theorem oadPackage_bytes (h : oadPackage data i = some o) :
    o.oi1 = data.getD (i + 1) 0 ∧ o.attributeId = data.getD (i + 2) 0 := by
  rw [oadPackage_eq h]
  exact ⟨rfl, rfl⟩

theorem OwnBytes.method_eq {j : Asked} (h : OwnBytes k data) (ho : oadPackage data 3 = some o) (hj : o.method = some j) :
    j = k := by
  obtain ⟨hoi1, hattr⟩ := oadPackage_bytes ho
  obtain ⟨hoi1', hattr', hget⟩ := Oad698.bytes_of_method hj
  obtain ⟨hown1, hown2⟩ := h
  rw [← hoi1, hoi1'] at hown1
  rw [← hattr, hattr'] at hown2
  revert hown1 hown2 hget
  cases j <;> cases k <;> decide

/-- The second pass of a kept request, from what its package does. -/
theorem answerKept_finishes {service : Service698} (clears : Bool)
    {package : Request → Unit × Office → Except Stop (Int × Unit × Office)}
    (hpackage : Finishes fine (fun p => Works w p.2.2) (package ((w.setNeed k true).kept k) ((), w.setNeed k true)))
    (hgood : ∀ w', package ((w.setNeed k true).kept k) ((), w.setNeed k true) = .ok (0, (), w') → Sound w →
      SaysSuccess (service, w'.dataTx.apdu)) :
    Finishes fine (fun p => Works w p.2) (answerKept service k clears package w) := by
  refine hpackage.bind fun ⟨result, _, w₁⟩ hok hworks => ?_
  dsimp only
  generalize hw₂ : (if clears then w₁.setNeed k false else w₁) = w₂
  have hcleared : Works w w₂ ∧ w₂.dataTx = w₁.dataTx := by
    rw [← hw₂]
    split_ifs
    · exact ⟨hworks.trans (.setNeed w₁ k false), Office.setNeed_dataTx w₁ k false⟩
    · exact ⟨hworks, rfl⟩
  show Works w (if result = 0 then w₂.answered service else w₂)
  split_ifs with hresult
  · refine hcleared.1.answered fun hsound => ?_
    rw [hcleared.2]
    exact hgood w₁ (hresult ▸ hok) hsound
  · exact hcleared.1

theorem setNeed_needPackage (w : Office) (k : Asked) (need : Bool) : ((w.setNeed k need).kept k).needPackage = need := by
  simp [Office.setNeed, Office.setKept]

theorem steady_works {H : Type} (w : Office) : Steady (H := H) fun st => Works w st.2 :=
  fun _ _ _ hwrites hworks => hworks.trans hwrites.toWorks

theorem steady_works_need {H : Type} (w : Office) (k : Asked) :
    Steady (H := H) fun st => Works w st.2 ∧ (st.2.kept k).needPackage = true := by
  rintro _ w₁ w₂ hwrites ⟨hworks, hneed⟩
  exact ⟨hworks.trans hwrites.toWorks, by rw [hwrites.kept]; exact hneed⟩

theorem answerKept_action (houtside : fine .outside) (hmask : fine .strategyLock)
    (hlock : fine .lock ∨ OwnBytes k (w.kept k).usrData) (clears : Bool) :
    Finishes fine (fun p => Works w p.2) (answerKept .action k clears (actionResponsePackage waitForLock) w) := by
  have hset : Works w (w.setNeed k true) := .setNeed w k true
  refine answerKept_finishes clears ?_ fun w' hok hsound => actionResponsePackage_saysSuccess (hset.sound hsound) hok
  refine actionResponsePackage_finishes houtside (steady_works_need w k) (steady_works w) (fun _ _ => And.left) ?_
    ⟨hset, setNeed_needPackage w k true⟩
  rintro j hj req' _ _ w₁ ⟨hworks, hneed⟩
  refine (askedCase_held houtside hmask ?_).imp fun p hp => hworks.trans hp
  rcases hlock with hlock | hown
  · exact .inr hlock
  · obtain ⟨_, o, ho, hmethod⟩ := Request.asks_eq_some.mp hj
    rw [hset.data k] at ho
    rw [hown.method_eq ho hmethod]
    exact .inl hneed

/-- Object number `i` of a list request is the plan. -/
def planAt (data : List Byte) (i : Nat) : Bool := (oadPackage data (4 + 4 * i)).any fun o => o.IsPlan

/-- A list request names the plan at most once. -/
def Once (data : List Byte) : Prop :=
  data.getD 1 0 = 2 → (List.range (data.getD 3 0).toNat).countP (planAt data) ≤ 1
deriving Decidable

/-- How often the plan may still come: once as long as `need_package` is set, then no more. -/
def Left (data : List Byte) (count i : Nat) (w : Office) : Prop :=
  (List.range' i (count - i)).countP (planAt data) ≤ if (w.kept .chgPlanIssueGet).needPackage then 1 else 0

theorem Left.of_plan (h : Left data count i w) (hi : i < count) (hplan : planAt data i = true) :
    (w.kept .chgPlanIssueGet).needPackage = true ∧
      (List.range' (i + 1) (count - (i + 1))).countP (planAt data) = 0 := by
  have hsplit : List.range' i (count - i) = i :: List.range' (i + 1) (count - (i + 1)) := by
    rw [show count - i = count - (i + 1) + 1 by omega, List.range'_succ]
  rw [Left, hsplit, List.countP_cons_of_pos hplan] at h
  split_ifs at h with hneed
  · exact ⟨hneed, by omega⟩
  · omega

theorem Left.of_other (h : Left data count i w) (hi : i < count) (hplan : ¬ planAt data i = true) : Left data count (i + 1) w := by
  have hsplit : List.range' i (count - i) = i :: List.range' (i + 1) (count - (i + 1)) := by
    rw [show count - i = count - (i + 1) + 1 by omega, List.range'_succ]
  rw [Left, hsplit, List.countP_cons_of_neg hplan] at h
  exact h

theorem Request.usr_eq_ok {b : Byte} (h : req.usr i = .ok b) : req.usrData.getD i 0 = b := by
  rw [List.getD_eq_getElem?_getD, Request.getElem?_of_usr h, Option.getD_some]

/-- The answer to a kept get request. Every plan in it uses up `need_package`. -/
theorem answerKept_get {env : Services} (houtside : fine .outside) (hmask : fine .strategyLock)
    (hlock : fine .lock ∨ Once (w.kept .chgPlanIssueGet).usrData) (clears : Bool) :
    Finishes fine (fun p => Works w p.2) (answerKept .get .chgPlanIssueGet clears (getResponsePackage env waitForLock) w) := by
  have hset : Works w (w.setNeed .chgPlanIssueGet true) := .setNeed w .chgPlanIssueGet true
  refine answerKept_finishes clears ?_ fun w' _ _ => nofun
  generalize hreq : (w.setNeed .chgPlanIssueGet true).kept .chgPlanIssueGet = req
  have hdata : (w.kept .chgPlanIssueGet).usrData = req.usrData := by rw [← hreq, hset.data]
  rw [hdata] at hlock
  refine getResponsePackage_finishes houtside (steady_works_need w .chgPlanIssueGet) (steady_works w) (fun _ => And.left) ?_ ?_
    ⟨hset, setNeed_needPackage w .chgPlanIssueGet true⟩
  · -- a single object
    intro _ oad _ _ w₁ hw₁
    have hsteady := steady_works_need (H := Unit) w .chgPlanIssueGet
    refine getResponseNormalOad_finishes (Q := fun st => Works w st.2) hsteady (hsteady _ w₁ _ (.oadOmd w₁ oad) hw₁) ?_
      fun _ _ => And.left
    rintro _ w₂ ⟨hworks, hneed⟩
    exact (askedCase_held houtside hmask (.inl hneed)).imp fun p hp => hworks.trans hp
  · -- a list of them
    rintro hkind count hcount _ w₁ ⟨hworks, hneed⟩
    let P (i : Nat) (st : Unit × Office) : Prop := Works w st.2 ∧ (fine .lock ∨ Left req.usrData count.toNat i st.2)
    have hsteady : ∀ i, Steady (P i) := by
      rintro i _ w₂ w₃ hwrites ⟨hworks, hleft⟩
      refine ⟨hworks.trans hwrites.toWorks, hleft.imp_right fun hleft => ?_⟩
      rw [Left, hwrites.kept]
      exact hleft
    have hstart : P 0 ((), w₁) := by
      refine ⟨hworks, hlock.imp_right fun honce => ?_⟩
      have hcount' := Request.usr_eq_ok (i := 3) hcount
      rw [Left, hneed, if_pos rfl, Nat.sub_zero, ← List.range_eq_range', ← hcount']
      exact honce (Request.usr_eq_ok (i := 1) hkind)
    refine (oadLoop_finishes houtside (P := P) count.toNat ?_ count.toNat 0 (Nat.zero_add _) hstart).imp fun p hp => hp.1
    intro i oad hoad hi _ w₂ hw₂
    have hplanAt : planAt req.usrData i = decide oad.IsPlan := by rw [planAt, hoad, Option.any_some]
    refine getResponseNormalOad_finishes (hsteady i) (hsteady i _ w₂ _ (.oadOmd w₂ oad) hw₂) ?_ ?_
    · rintro hplan w₃ ⟨hworks, hleft⟩
      have hused := hleft.imp_right fun hleft => hleft.of_plan hi (hplanAt.trans (decide_eq_true hplan))
      refine (askedCase_held houtside hmask (hused.symm.imp_left And.left)).imp fun p hp => ⟨hworks.trans hp, ?_⟩
      refine hused.imp_right fun hused => ?_
      rw [Left, hused.2]
      exact Nat.zero_le _
    · rintro hplan w₃ ⟨hworks, hleft⟩
      refine ⟨hworks, hleft.imp_right fun hleft => hleft.of_other hi ?_⟩
      rw [hplanAt, decide_eq_true_eq]
      exact hplan

/-! ## The blocks -/

section Blocks

variable {W : Type} {R : W → Prop} {r : Reporters W}

/-- Every builder keeps a property of the world. -/
structure Reporters.Keep (r : Reporters W) (R : W → Prop) : Prop where
  action : ∀ cmd w, R w → R (r.actionResponsePackage cmd w).2
  get : ∀ w, R w → R (r.getResponsePackage w).2
  security : ∀ w, R w → R (r.securityGetPackage w).2
  exeState : ∀ w, R w → R (r.reportCmdChgPlanExeState w).2
  notify : ∀ cmd w, R w → R (r.reportNotificationPackage cmd w)
  transmit : ∀ w, R w → R (r.hplcTxFrame w)

theorem Reporters.Keep.ackBlock (hr : r.Keep R) {build : W → Int × W} (hbuild : ∀ w, R w → R (build w).2) (cmd : CommCmd)
    (clears : Bool) {st : Int × Hplc W} (h : R st.2.world) : R (ackBlock r build cmd clears st).2.world := by
  simp only [EnergyRouter.ackBlock]
  by_cases hpending : st.2.Pending cmd
  · rw [if_pos hpending]
    generalize hs : (if clears then { st.2 with hplcEvent := st.2.hplcEvent &&& ~~~cmd.event } else st.2) = s
    have hworld : R s.world := by
      rw [← hs]
      split_ifs <;> exact h
    split_ifs with hresult
    · exact hbuild _ hworld
    · exact hr.transmit _ (hr.security _ (hbuild _ hworld))
  · rw [if_neg hpending]
    exact h

theorem Reporters.Keep.exeStateBlock (hr : r.Keep R) {st : Int × Hplc W} (h : R st.2.world) : R (exeStateBlock r st).2.world := by
  simp only [EnergyRouter.exeStateBlock]
  split_ifs with hpending hresult
  · exact hr.exeState _ h
  · exact hr.transmit _ (hr.exeState _ h)
  · exact h

theorem Reporters.Keep.notifyBlock (hr : r.Keep R) (cmd : CommCmd) {st : Int × Hplc W} (h : R st.2.world) :
    R (notifyBlock r cmd st).2.world := by
  simp only [EnergyRouter.notifyBlock]
  split_ifs with hpending hresult
  · exact hr.notify cmd _ h
  · exact hr.transmit _ (hr.notify cmd _ h)
  · exact h

theorem Reporters.Keep.pileFaultBlock (hr : r.Keep R) {st : Int × Hplc W} (h : R st.2.world) : R (pileFaultBlock r st).2.world := by
  simp only [EnergyRouter.pileFaultBlock]
  split_ifs with hpending hresult
  · exact h
  · exact hr.notify _ _ (hr.transmit _ h)
  · exact h

theorem Reporters.Keep.afairBlock (hr : r.Keep R) (cmd : CommCmd) {st : Int × Hplc W} (h : R st.2.world) :
    R (afairBlock r cmd st).2.world := by
  unfold EnergyRouter.afairBlock
  split
  case h_3 => exact hr.ackBlock hr.get _ _ h
  case h_6 => exact hr.exeStateBlock h
  case h_7 => exact hr.notifyBlock _ h
  case h_8 => exact hr.notifyBlock _ h
  case h_9 => exact hr.pileFaultBlock h
  case h_10 => exact h
  all_goals exact hr.ackBlock (hr.action _) _ _ h

theorem Reporters.Keep.foldl_afairBlock (hr : r.Keep R) (cmds : List CommCmd) (st : Int × Hplc W) (h : R st.2.world) :
    R (cmds.foldl (fun st cmd => EnergyRouter.afairBlock r cmd st) st).2.world := by
  induction cmds generalizing st with
  | nil => exact h
  | cons cmd cmds ih => exact ih _ (hr.afairBlock cmd h)

end Blocks

/-! ## `check_afair_from_botom` -/

/-- No kept request leads to a call that waits. -/
structure Safe (w : Office) : Prop where
  own : ∀ k, k ≠ .chgPlanIssueGet → OwnBytes k (w.kept k).usrData
  once : Once (w.kept .chgPlanIssueGet).usrData

theorem Works.safe (h : Works w w') (hw : Safe w) : Safe w' := by
  refine ⟨fun k hk => ?_, ?_⟩
  · rw [h.data k]
    exact hw.own k hk
  · rw [h.data]
    exact hw.once

theorem strict_finishes {f : Office → Except Stop (Int × Office)}
    (hf : ∀ w, Works w₀ w → Finishes fine (fun p => Works w p.2) (f w)) {x : Except Stop Office} (hx : Finishes fine (Works w₀) x) :
    Finishes fine (Works w₀) (strict f x).2 := by
  have hbind : Finishes fine (fun p => Works w₀ p.2) (x >>= f) :=
    hx.bind fun w _ hw => (hf w hw).imp fun p hp => hw.trans hp
  rw [strict]
  cases hcall : x >>= f with
  | ok p => exact hbind.post_of_ok hcall
  | error stop => exact hbind.fine_of_error hcall

theorem reporters_keep (houtside : fine .outside) (hmask : fine .strategyLock) (hlock : fine .lock ∨ Safe w₀) (env : Services) :
    env.reporters.Keep (Finishes fine (Works w₀)) := by
  have hmethod : ∀ k, k ≠ .chgPlanIssueGet → ∀ clears x, Finishes fine (Works w₀) x →
      Finishes fine (Works w₀) (strict (answerKept .action k clears (actionResponsePackage waitForLock)) x).2 := by
    intro k hk clears x hx
    exact strict_finishes
      (fun w hw => answerKept_action houtside hmask (hlock.imp_right fun hsafe => (hw.safe hsafe).own k hk) clears) hx
  refine ⟨?_, ?_, ?_, ?_, ?_, fun _ => id⟩
  · intro cmd x hx
    simp only [Services.reporters]
    split
    · exact hmethod .chgPlanIssue nofun _ x hx
    · exact hmethod .chgPlanAdjust nofun _ x hx
    · exact hmethod .startChg nofun _ x hx
    · exact hmethod .stopChg nofun _ x hx
    · exact hx
  · intro x hx
    exact strict_finishes (fun w hw => answerKept_get houtside hmask (hlock.imp_right fun hsafe => (hw.safe hsafe).once) false) hx
  · intro x hx
    refine strict_finishes (fun w _ => ?_) hx
    exact Works.dataTx w (env.security_size _ _)
  · intro x hx
    refine strict_finishes (fun w _ => ?_) hx
    -- the report is not evaluated, only its size is known
    generalize hreport : reportCmdChgPlanExeState w.reportChargeExeState w.dataTx w.state = report
    cases report with
    | none => exact houtside
    | some p => exact Works.dataTx w (reportCmdChgPlanExeState_size hreport)
  · intro cmd x hx
    exact hx.map fun w hw => hw.trans (.dataTx w (env.report_size cmd _ _))

/-- A poll works on the desk and clears the flags it set. -/
theorem checkAfair_finishes (houtside : fine .outside) (hmask : fine .strategyLock) (env : Services) {h : Hplc Unit}
    (hlock : fine .lock ∨ h.Unlocked ∧ Safe w) :
    Finishes fine (fun p => p.2.1.Unlocked ∧ Works w p.2.2) (env.checkAfair (h, w)) := by
  simp only [Services.checkAfair, checkAfairFromBotom]
  by_cases hfree : (h.withWorld (Except.ok w : Except Stop Office)).Unlocked
  · rw [if_pos hfree]
    have hkeep := (reporters_keep houtside hmask (hlock.imp_right And.right) env).foldl_afairBlock blockOrder
      (-1, { h.withWorld (Except.ok w) with lock1 := true, lock2 := true }) (Works.refl w)
    exact hkeep.map fun w' hw' => ⟨⟨rfl, rfl⟩, hw'⟩
  · rw [if_neg hfree]
    exact hlock.resolve_right fun hboth => hfree hboth.1

/-! ## The events at the desk -/

/-- What the events that serve no request leave alone. -/
structure Aside (w w' : Office) : Prop where
  addr : w'.state.addr = w.state.addr
  size : w'.dataTx.size = w.dataTx.size
  kept : w'.kept = w.kept
  answers : w'.answers = w.answers

theorem Aside.sound (h : Aside w w') (hw : Sound w) : Sound w' :=
  ⟨h.size.trans hw.size, by rw [h.addr]; exact hw.addr⟩

theorem Handed.store_aside (handed : Handed) (cmd : CommCmd) (w : Office) : Aside w (handed.store cmd w) := by
  unfold Handed.store
  split <;> exact ⟨rfl, rfl, rfl, rfl⟩

/-- An event that serves no request changes nothing that matters, or works on the desk. -/
theorem Desk.step_of_not_request (houtside : fine .outside) (hmask : fine .strategyLock)
    (hlock : fine .lock ∨ desk.1.Unlocked ∧ Safe desk.2) {op : DeskOp} (hop : ∀ env dataRev, op ≠ .request env dataRev) :
    Finishes fine (fun d => Aside desk.2 d.2 ∨ Works desk.2 d.2) (desk.step op) := by
  cases op with
  | post cmd handed =>
    simp only [Desk.step, ctrlUnitRecResp]
    by_cases hfree : (desk.1.withWorld desk.2).Unlocked
    · rw [if_pos hfree]
      cases hcase : recCase cmd with
      | none => exact .inl ⟨rfl, rfl, rfl, rfl⟩
      | some c => exact .inl (handed.store_aside cmd desk.2)
    · rw [if_neg hfree]
      exact hlock.resolve_right fun hboth => hfree hboth.1
  | take => exact (orStop_finishes hmask fun _ _ => trivial).bind fun _ _ _ => .inl ⟨rfl, rfl, rfl, rfl⟩
  | poll env => exact (checkAfair_finishes houtside hmask env hlock).map fun p hp => .inr hp.2
  | request env dataRev => exact absurd rfl (hop env dataRev)
  | other linkFlag connectFlag frame priveData dataSize => exact .inl ⟨rfl, rfl, rfl, rfl⟩

/-- A request keeps a property that work and the keeping of requests keep. -/
theorem Services.request_finishes (houtside : fine .outside) (hmask : fine .strategyLock) (env : Services)
    {dataRev : CharPointDataManage} {D : Office → Prop} (hworks : ∀ w w', Works w w' → D w → D w')
    (hsafe : ∀ w, D w → fine .lock ∨ Safe w)
    (hmethod : ∀ k, dataRev.request.asks = some k → ∀ w w', Keeping k dataRev.request w w' → D w → D w')
    (hplan : dataRev.usrByte 0 = some 5 → ∀ w w', Keeping .chgPlanIssueGet dataRev.request w w' → D w → D w')
    (hlock : fine .lock ∨ desk.1.Unlocked) (hD : D desk.2) :
    Finishes fine (fun d => D d.2) (env.request dataRev desk) := by
  obtain ⟨h₀, w₀⟩ := desk
  -- the identity and the size of the buffer stay, so that the answer is built in a sound desk
  let E (st : Desk) : Prop := D st.2 ∧ (fine .lock ∨ st.1.Unlocked) ∧ (Sound st.2 → Sound w₀)
  have hE : E (h₀, w₀) := ⟨hD, hlock, id⟩
  have hsound : ∀ {w w' : Office}, w'.state = w.state → w'.dataTx.size = w.dataTx.size → Sound w' → Sound w := by
    intro w w' hstate hsize hw'
    exact ⟨hsize ▸ hw'.size, hstate ▸ hw'.addr⟩
  have hserving : Serving fine E env.afair := by
    refine ⟨houtside, hmask, ?_, ?_⟩
    · rintro h w w' hw' ⟨hD, hlock, hback⟩
      exact ⟨hworks w w' hw' hD, hlock, fun hs => hback (hsound hw'.state hw'.size hs)⟩
    · rintro ⟨h, w⟩ ⟨hD, hlock, hback⟩
      have hboth : fine .lock ∨ h.Unlocked ∧ Safe w := by
        rcases hlock with hlock | hfree
        · exact .inl hlock
        · exact (hsafe w hD).imp_right fun hsafe => ⟨hfree, hsafe⟩
      refine (checkAfair_finishes houtside hmask env hboth).map fun p hp => ?_
      exact ⟨hworks w _ hp.2 hD, .inr hp.1, fun hs => hback (hsound hp.2.state hp.2.size hs)⟩
  have hkeep : ∀ {k}, (∀ w w', Keeping k dataRev.request w w' → D w → D w') →
      ∀ h w w', Keeping k dataRev.request w w' → E (h, w) → E (h, w') := by
    rintro k hD' h w w' hkeeping ⟨hD, hlock, hback⟩
    refine ⟨hD' w w' hkeeping hD, hlock, fun hs => hback (hsound hkeeping.state ?_ hs)⟩
    rw [hkeeping.dataTx]
  refine (orStop_finishes houtside fun tag htag => htag).bind fun tag _ htag => .ite (fun hget => ?_) fun _ =>
    .ite (fun _ => ?_) fun _ => hD
  · refine (hserving.getResponsePackage (hkeep (hplan (hget ▸ htag))) hE).bind fun ⟨result, h, w⟩ _ hp => ?_
    show D (if result = 0 then w.answered .get else w)
    split_ifs
    · exact hworks w _ ((Works.refl w).answered fun _ => nofun) hp.1
    · exact hp.1
  · refine (hserving.actionResponsePackage (fun k hk => hkeep (hmethod k hk)) hE).bind fun ⟨result, h, w⟩ hok hp => ?_
    show D (if result = 0 then w.answered .action else w)
    split_ifs with hresult
    · refine hworks w _ ((Works.refl w).answered fun hs => ?_) hp.1
      exact actionResponsePackage_saysSuccess (hp.2.2 hs) (hresult ▸ hok)
    · exact hp.1

end EnergyRouter
