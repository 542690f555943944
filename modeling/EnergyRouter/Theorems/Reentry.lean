import EnergyRouter.Lemmas.Desk
import EnergyRouter.Lib.Runs

/-!
# The 698 thread does not wait for itself

`check_afair_from_botom` holds the flags while it answers the kept requests, and the routines that answer call it again when
`need_package` is not set. It is set right before the answer, and the first plan of a list uses it up.
-/

namespace EnergyRouter

open Calls Runs

/-! ## What is kept of a request -/

theorem saveCharPointUsrdata_getD {data res data' : List Byte} {size : Int} (h : saveCharPointUsrdata data res size = some data')
    (i : Nat) : data'.getD i 0 = data.getD i 0 ∨ data'.getD i 0 = res.getD i 0 := by
  rcases saveCharPointUsrdata_cases h with ⟨rfl, _⟩ | ⟨_, hlong, rfl⟩
  · exact .inl rfl
  · have hlen : (res.take size.toNat).length = size.toNat := List.length_take_of_le hlong
    simp only [List.getD_eq_getElem?_getD]
    by_cases hi : i < size.toNat
    · right
      rw [List.getElem?_append_left (by omega), List.getElem?_take_of_lt hi]
    · left
      rw [List.getElem?_append_right (by omega), hlen, List.getElem?_drop, Nat.add_sub_cancel' (by omega)]

theorem saveCharPointUsrdata_again {data res data' : List Byte} {size : Int} (h : saveCharPointUsrdata data res size = some data') :
    saveCharPointUsrdata data' res size = some data' := by
  have hlen := saveCharPointUsrdata_length h
  rcases saveCharPointUsrdata_cases h with ⟨rfl, _⟩ | ⟨⟨hneg, hfits⟩, hlong, rfl⟩
  · exact h
  · rw [saveCharPointUsrdata, if_neg (by omega), hlen, if_pos hfits, if_pos hlong, List.drop_left' (List.length_take_of_le hlong)]

theorem Keeping.ownBytes {k : Asked} {req : Request} {o : Oad698} {w w' : Office} (h : Keeping k req w w')
    (ho : oadPackage req.usrData 3 = some o) (hk : o.method = some k) (hown : OwnBytes k (w.kept k).usrData) :
    OwnBytes k (w'.kept k).usrData := by
  obtain ⟨hoi, hattr⟩ := oadPackage_bytes ho
  obtain ⟨hoi', hattr', _⟩ := Oad698.bytes_of_method hk
  constructor
  · rcases saveCharPointUsrdata_getD h.data 4 with hbyte | hbyte
    · rw [hbyte]
      exact hown.1
    · rw [hbyte, ← hoi']
      exact .inr hoi.symm
  · rcases saveCharPointUsrdata_getD h.data 5 with hbyte | hbyte
    · rw [hbyte]
      exact hown.2
    · rw [hbyte, ← hattr']
      exact .inr hattr.symm

/-! ## Steps -/

/-- As it would be kept over the one kept before, the request names the plan at most once. -/
def KeptOnce (req : Request) (w : Office) : Prop :=
  ∀ data ∈ saveCharPointUsrdata (w.kept .chgPlanIssueGet).usrData req.usrData req.usrDataLen, Once data
deriving Decidable

/-- Get requests name the plan at most once. -/
def ListsPlanOnce (desk : Desk) : DeskOp → Prop
  | .request _ dataRev => dataRev.usrByte 0 = some 5 → KeptOnce dataRev.request desk.2
  | _ => True

instance (desk : Desk) (op : DeskOp) : Decidable (ListsPlanOnce desk op) :=
  match op with
  | .request _ dataRev => inferInstanceAs (Decidable (dataRev.usrByte 0 = some 5 → KeptOnce dataRev.request desk.2))
  | .post _ _ | .take | .poll _ | .other _ _ _ _ _ => isTrue trivial

/-- An event at the desk, met with the flags clear, does not come to a wait for them. -/
def NeverWaits (desk : Desk) (op : DeskOp) : Prop := desk.1.Unlocked → desk.step op ≠ .error .lock

instance (desk : Desk) (op : DeskOp) : Decidable (NeverWaits desk op) :=
  match h : desk.step op with
  | .ok _ => isTrue fun _ hstuck => nomatch h.symm.trans hstuck
  | .error stop =>
    decidable_of_iff (desk.1.Unlocked → stop ≠ .lock)
      ⟨fun hnot hfree hstuck => hnot hfree (Except.error.inj (h.symm.trans hstuck)),
        fun hnot hfree hlock => hnot hfree (hlock ▸ h)⟩

variable {fine : Stop → Prop}

theorem Aside.safe {w w' : Office} (h : Aside w w') (hw : Safe w) : Safe w' := by
  refine ⟨?_, ?_⟩
  · rw [h.kept]
    exact hw.own
  · rw [h.kept]
    exact hw.once

/-- Every event leaves kept requests that lead to no wait, and comes to none when the flags are clear. -/
theorem Desk.step_safe (houtside : fine .outside) (hmask : fine .strategyLock) {desk : Desk} (hsafe : Safe desk.2) {op : DeskOp}
    (hop : ListsPlanOnce desk op) (hlock : fine .lock ∨ desk.1.Unlocked) : Finishes fine (fun d => Safe d.2) (desk.step op) := by
  by_cases hrequest : ∃ env dataRev, op = .request env dataRev
  · obtain ⟨env, dataRev, rfl⟩ := hrequest
    let D (w : Office) : Prop := Safe w ∧ (dataRev.usrByte 0 = some 5 → KeptOnce dataRev.request w)
    have hD : Finishes fine (fun d => D d.2) (env.request dataRev desk) := by
      refine Services.request_finishes houtside hmask env ?_ (fun w hw => .inr hw.1) ?_ ?_ hlock ⟨hsafe, hop⟩
      · rintro w w' hworks ⟨hsafe, honce⟩
        refine ⟨hworks.safe hsafe, ?_⟩
        unfold KeptOnce
        rw [hworks.data]
        exact honce
      · -- a method is kept: its own bytes are, and the get request stays
        rintro k hasks w w' hkeeping ⟨hsafe, honce⟩
        obtain ⟨_, o, ho, hk⟩ := Request.asks_eq_some.mp hasks
        obtain ⟨_, _, hget⟩ := Oad698.bytes_of_method hk
        have hsame := hkeeping.other .chgPlanIssueGet fun heq => hget heq.symm
        refine ⟨⟨?_, by rw [hsame]; exact hsafe.once⟩, by unfold KeptOnce; rw [hsame]; exact honce⟩
        intro j hj
        by_cases hjk : j = k
        · rw [hjk]
          exact hkeeping.ownBytes ho hk (hsafe.own k hget)
        · rw [hkeeping.other j hjk]
          exact hsafe.own j hj
      · -- a get request is kept: it names the plan once, and it is the same when it is kept again
        rintro htag w w' hkeeping ⟨hsafe, honce⟩
        refine ⟨⟨?_, honce htag _ hkeeping.data⟩, fun _ data hdata => ?_⟩
        · intro j hj
          rw [hkeeping.other j hj]
          exact hsafe.own j hj
        · cases (saveCharPointUsrdata_again hkeeping.data).symm.trans hdata
          exact honce htag _ hkeeping.data
    exact hD.imp fun d hd => hd.1
  · have hnot : ∀ env dataRev, op ≠ .request env dataRev := fun env dataRev heq => hrequest ⟨env, dataRev, heq⟩
    refine (Desk.step_of_not_request houtside hmask (hlock.imp_right fun hfree => ⟨hfree, hsafe⟩) hnot).imp fun d hd => ?_
    rcases hd with haside | hworks
    · exact haside.safe hsafe
    · exact hworks.safe hsafe

theorem powerUpDesk_safe : Safe powerUpDesk.2 := by
  refine ⟨?_, ?_⟩
  · intro k _
    cases k <;> exact ⟨.inl rfl, .inl rfl⟩
  · decide

/-! ## Runs -/

/-- As long as no get request names the plan twice, the 698 thread never waits for itself. -/
theorem never_waits_for_itself {ops : List DeskOp} (hops : Meets Desk.next ListsPlanOnce powerUpDesk ops) :
    Meets Desk.next NeverWaits powerUpDesk ops := by
  have hinv : ∀ desk op desk', Safe desk.2 → ListsPlanOnce desk op → Desk.next desk op = some desk' → Safe desk'.2 := by
    intro desk op desk' hsafe hop hstep
    have hfinishes : Finishes (fun _ => True) (fun d => Safe d.2) (desk.step op) :=
      Desk.step_safe trivial trivial hsafe hop (.inl trivial)
    exact hfinishes.post_of_toOption hstep
  refine hops.imp_of_inv hinv ?_ powerUpDesk_safe
  intro desk op hsafe hop hfree hstuck
  have hfinishes : Finishes (fun stop => stop ≠ .lock) (fun d => Safe d.2) (desk.step op) :=
    Desk.step_safe nofun nofun hsafe hop (.inr hfree)
  exact hfinishes.fine_of_error hstuck rfl

/-- A get request for a list that names the plan `n` times. -/
def planList (n : Nat) : DeskOp :=
  .request bareServices (receivedApdu ([5, 2, 0, BitVec.ofNat 8 n] ++ (List.replicate n [0x90, 0x01, 2, 0]).flatten ++ [0]))

/-- The energy control hands over its plans, of which there are none, and the thread polls. -/
def plansAnswered : List DeskOp := [.post .chgPlanIssueGetAck (.plans []), .poll bareServices]

theorem never_waits_for_itself_one_plan : Meets Desk.next NeverWaits powerUpDesk (planList 1 :: plansAnswered) :=
  never_waits_for_itself (by decide +kernel)

/-- A list that names the plan twice: when the plans are handed over, the thread waits for itself. -/
theorem two_plans_wait : ¬ Meets Desk.next NeverWaits powerUpDesk (planList 2 :: plansAnswered) := by
  decide +kernel

end EnergyRouter
