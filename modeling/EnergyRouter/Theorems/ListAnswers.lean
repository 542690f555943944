import EnergyRouter.Lemmas.Data
import EnergyRouter.Theorems.Capacity

/-!
# Answers to a list

The answer to a list has an entry for each object only if every handler writes one. The result of a handler is forgotten unless it
is the last, so an answer with entries missing is sent all the same.
-/

namespace EnergyRouter

open Buffer Calls TableCrc

variable {result : Int} {w w' : Office} {i : Nat} {l : List Byte} {d d' : CharPointDataManage}

/-! ## The turns of the loop -/

/-- A turn of the loop over the objects of a list: its object, the desk before and after it, and its result. -/
structure Turn where
  oad : Oad698
  before : Office
  result : Int
  after : Office

/-- The turn has put `e` behind the bytes in use. -/
def Turn.Puts (t : Turn) (e : List Byte) : Prop := t.after.dataTx.contents = t.before.dataTx.contents ++ e

/-- What is behind them after the turn. -/
def Turn.added (t : Turn) : List Byte := t.after.dataTx.contents.drop t.before.dataTx.contents.length

theorem Turn.Puts.eq_added {t : Turn} {e : List Byte} (h : t.Puts e) : e = t.added := by
  rw [Turn.added, h, List.drop_left]

/-- An entry of the list of results: an OAD, and its result. -/
def IsEntry (oad : Oad698) (e : List Byte) : Prop := ∃ r, IsResult r ∧ e = oad.bytes ++ r

section Loop

variable {H : Type} (env : Services) (afair : H × Office → Except Stop (H × Office)) (req : Request)

/-- The turns from number `i` on, between two states of the desk. -/
inductive Turns : Nat → H × Office → List Turn → H × Office → Prop
  | nil (i : Nat) (st : H × Office) : Turns i st [] st
  | cons {i : Nat} {h h₁ : H} {w w₁ : Office} {oad : Oad698} {result : Int} {ts : List Turn} {st : H × Office} :
      oadPackage req.usrData (4 + 4 * i) = some oad →
      getResponseNormalOad env afair req (h, { w with oadOmd := oad }) = .ok (result, h₁, w₁) →
      Turns (i + 1) (h₁, w₁) ts st → Turns i (h, w) (⟨oad, { w with oadOmd := oad }, result, w₁⟩ :: ts) st

variable {env afair req}

/-- A loop that comes to its end has made its turns, and its result is that of the last. -/
theorem oadLoop_turns (n i : Nat) {result' : Int} {h h' : H}
    (hok : oadLoop env afair req n i (result, h, w) = .ok (result', h', w')) :
    ∃ ts, ts.length = n ∧ Turns env afair req i (h, w) ts (h', w') ∧ result' = (ts.getLast?.map Turn.result).getD result := by
  induction n generalizing i result h w with
  | zero =>
    cases hok
    exact ⟨[], rfl, .nil _ _, rfl⟩
  | succ n ih =>
    obtain ⟨oad, hoad, hok⟩ := bind_eq_ok hok
    obtain ⟨⟨r₁, h₁, w₁⟩, hone, hok⟩ := bind_eq_ok hok
    obtain ⟨ts, hlen, hturns, hlast⟩ := ih (i + 1) hok
    refine ⟨_, congrArg (· + 1) hlen, .cons (orStop_eq_ok hoad) hone hturns, ?_⟩
    rw [hlast, List.getLast?_cons]
    cases ts.getLast? <;> rfl

theorem Turns.oad {st st' : H × Office} {ts : List Turn} (hturns : Turns env afair req i st ts st') {k : Nat} {t : Turn}
    (ht : ts[k]? = some t) : oadPackage req.usrData (4 + 4 * (i + k)) = some t.oad := by
  induction hturns generalizing k with
  | nil => cases ht
  | @cons i h h₁ w w₁ oad result ts st hoad hone hrest ih =>
    cases k with
    | zero =>
      cases ht
      exact hoad
    | succ k =>
      rw [show i + (k + 1) = i + 1 + k by omega]
      exact ih ht

/-- The call of `check_afair_from_botom` leaves the state of the port alone. -/
def KeepsState (afair : H × Office → Except Stop (H × Office)) : Prop :=
  ∀ h w h' w', afair (h, w) = .ok (h', w') → w'.state = w.state

theorem getResponseNormalOad_state (hstate : KeepsState afair) {h h' : H}
    (hok : getResponseNormalOad env afair req (h, w) = .ok (result, h', w')) : w'.state = w.state := by
  obtain ⟨_, -, hsame⟩ | ⟨w₁, hcall, -, hsame⟩ := getResponseNormalOad_cases hok
  · exact hsame
  · rw [hsame, hstate _ _ _ _ hcall, Office.putOad, Office.put_state]

/-- What holds of every turn of an answer that is being written. -/
structure Turn.Made (env : Services) (afair : H × Office → Except Stop (H × Office)) (req : Request) (t : Turn) : Prop where
  omd : t.before.oadOmd = t.oad
  run : ∃ h h', getResponseNormalOad env afair req (h, t.before) = .ok (t.result, h', t.after)
  head : HeadIn t.before.dataTx
  addr : t.before.state.addr.sAddrLen = 6

theorem Turns.made (hafair : KeepsHead afair) (hstate : KeepsState afair) {st st' : H × Office} {ts : List Turn}
    (hturns : Turns env afair req i st ts st') (hhead : HeadIn st.2.dataTx) (haddr : st.2.state.addr.sAddrLen = 6) :
    ∀ t ∈ ts, t.Made env afair req := by
  induction hturns with
  | nil => exact fun _ ht => absurd ht List.not_mem_nil
  | @cons i h h₁ w w₁ oad result ts st hoad hone hrest ih =>
    have hhead₁ : HeadIn w₁.dataTx := getResponseNormalOad_headIn hafair (w := { w with oadOmd := oad }) hhead hone
    have haddr₁ : w₁.state.addr.sAddrLen = 6 := by
      rw [getResponseNormalOad_state hstate hone]
      exact haddr
    intro t ht
    rcases List.mem_cons.mp ht with rfl | ht
    · exact ⟨rfl, ⟨h, h₁, hone⟩, hhead, haddr⟩
    · exact ih hhead₁ haddr₁ t ht

/-- If every turn only adds to the buffer, the whole loop adds what they add. -/
theorem Turns.contents {st st' : H × Office} {ts : List Turn} (hturns : Turns env afair req i st ts st')
    (hputs : ∀ t ∈ ts, t.Puts t.added) :
    st'.2.dataTx.contents = st.2.dataTx.contents ++ (ts.map Turn.added).flatten := by
  induction hturns with
  | nil => simp
  | @cons i h h₁ w w₁ oad result ts st hoad hone hrest ih =>
    have hfirst : w₁.dataTx.contents = w.dataTx.contents ++ _ := hputs _ List.mem_cons_self
    rw [ih fun t ht => hputs t (List.mem_cons_of_mem _ ht), hfirst, List.map_cons, List.flatten_cons, List.append_assoc]

theorem Turns.getLast {st st' : H × Office} {ts : List Turn} (hturns : Turns env afair req i st ts st') {t : Turn}
    (ht : ts.getLast? = some t) : t.after = st'.2 := by
  induction hturns with
  | nil => cases ht
  | @cons i h h₁ w w₁ oad result ts st hoad hone hrest ih =>
    cases hlast : ts.getLast? with
    | none =>
      rw [List.getLast?_eq_none_iff] at hlast
      subst hlast
      cases ht
      cases hrest
      rfl
    | some u =>
      rw [List.getLast?_cons, hlast] at ht
      cases ht
      exact ih hlast

end Loop

/-! ## What a turn puts -/

/-- What a turn hands over behind the OAD. The plans are handed over in the second pass only. -/
def Turn.value (env : Services) (t : Turn) : List Byte :=
  if t.oad.IsPlan then
    if (t.before.kept .chgPlanIssueGet).needPackage then
      [1, 1, BitVec.ofNat 8 t.before.chargeStrategy698.length] ++ t.before.chargeStrategy698.flatMap planBytes
    else []
  else (objectRuns env t.before.state t.oad).2.flatten

/-- There is room for it, for the two bytes that end an answer and for the end of the frame. -/
def Turn.Fits (env : Services) (t : Turn) : Prop := t.before.dataTx.dataSize + (t.oad.bytes ++ t.value env).length ≤ 1018

/-- The object of a turn is answered with a result. The plan is in the second pass; in the first one a result can stand behind its
OAD only by chance. -/
def Turn.Served (v : Values) (t : Turn) : Prop :=
  if t.oad.IsPlan then
    (t.before.kept .chgPlanIssueGet).needPackage = true ∨ ∃ r, IsResult r ∧ t.Puts (t.oad.bytes ++ r)
  else ObjectServed v t.oad

/-- A plan without slots is a structure of ten values. -/
theorem isData_planBytes {p : ChargeStrategy} (hslots : p.ucTimeSlotNum = 0) : IsData (planBytes p) := by
  have hgroup : IsData (2 :: 10 :: [9 :: 16 :: p.cRequestNO.toList.take 16, 10 :: 64 :: p.cUserID.toList.take 64,
      [22, p.ucDecMaker], [22, p.ucDecType], 28 :: strSystemTimeToDateTimeS p.strDecTime, 10 :: 22 :: p.cAssetNO.toList.take 22,
      6 :: bytesOf32 p.ulChargeReqEle, 5 :: bytesOf32 p.ulChargeRatePow, [22, p.ucDecType], [1, 0]].flatten) := by
    refine .group (.inr rfl) rfl ?_
    simp only [List.forall_mem_cons, List.not_mem_nil, false_imp_iff, implies_true, and_true]
    refine ⟨.string (.inr (.inl rfl)) (by simp), .string (.inr (.inr (.inl rfl))) (by simp), .fixed rfl, .fixed rfl, .fixed rfl,
      .string (.inr (.inr (.inl rfl))) (by simp), .fixed rfl, .fixed rfl, .fixed rfl, ?_⟩
    have hempty : IsData (1 :: 0 :: ([] : List (List Byte)).flatten) := .group (.inl rfl) rfl nofun
    exact hempty
  have hbytes : planBytes p = 2 :: 10 :: [9 :: 16 :: p.cRequestNO.toList.take 16, 10 :: 64 :: p.cUserID.toList.take 64,
      [22, p.ucDecMaker], [22, p.ucDecType], 28 :: strSystemTimeToDateTimeS p.strDecTime, 10 :: 22 :: p.cAssetNO.toList.take 22,
      6 :: bytesOf32 p.ulChargeReqEle, 5 :: bytesOf32 p.ulChargeRatePow, [22, p.ucDecType], [1, 0]].flatten := by
    simp [planBytes, hslots]
  rw [hbytes]
  exact hgroup

section Turn

variable {H : Type} {env : Services} {afair : H × Office → Except Stop (H × Office)} {req : Request} {t : Turn}

theorem Turn.Made.puts_object (ht : t.Made env afair req) (hfits : t.Fits env) (hplan : ¬ t.oad.IsPlan) :
    t.Puts (t.oad.bytes ++ (objectRuns env t.before.state t.oad).2.flatten) := by
  obtain ⟨h, h', hrun⟩ := ht.run
  rw [getResponseNormalOad_eq (by rw [ht.omd]; exact hplan), ht.omd] at hrun
  have hafter : t.before.storing (oadRuns env t.before.state t.oad) = t.after :=
    (Prod.mk.inj (Prod.mk.inj (Except.ok.inj hrun)).2).2
  have hflat : (oadRuns env t.before.state t.oad).flatten = t.oad.bytes ++ (objectRuns env t.before.state t.oad).2.flatten := by
    rw [oadRuns, List.flatten_append, single_flatten]
  rw [Turn.Fits, Turn.value, if_neg hplan, ← hflat] at hfits
  rw [Turn.Puts, ← hafter, Office.storing_dataTx, (puts_foldl _ _).contents ht.head.size (by omega), hflat]

theorem Turn.Made.puts_plans (ht : t.Made env afair req) (hfits : t.Fits env) (hplan : t.oad.IsPlan)
    (hneed : (t.before.kept .chgPlanIssueGet).needPackage = true) :
    t.Puts (t.oad.bytes ++ t.value env) ∧ ∀ p ∈ t.before.chargeStrategy698, p.ucTimeSlotNum = 0 := by
  obtain ⟨h, h', hrun⟩ := ht.run
  rw [getResponseNormalOad_of_plan (by rw [ht.omd]; exact hplan)] at hrun
  obtain ⟨-, hput⟩ | ⟨hfirst, -⟩ := askedCase_eq_ok hrun
  swap
  · exact absurd (hneed.symm.trans hfirst) (by decide)
  rw [Turn.Fits, Turn.value, if_pos hplan, if_pos hneed] at hfits
  rw [Turn.Puts, Turn.value, if_pos hplan, if_pos hneed]
  obtain ⟨hputs, hslots⟩ := putOutcome_plans_puts hput
  rw [ht.omd, List.append_assoc] at hputs
  exact ⟨hputs.contents ht.head.size (Nat.le_trans hfits (by decide)), hslots⟩

/-- A turn puts an entry exactly when its object is served. -/
theorem Turn.Made.entry_iff {v : Values} (ht : t.Made (env.withValues v) afair req) (hfits : t.Fits (env.withValues v)) :
    (∃ e, IsEntry t.oad e ∧ t.Puts e) ↔ t.Served v := by
  rw [Turn.Served]
  by_cases hplan : t.oad.IsPlan
  · rw [if_pos hplan]
    constructor
    · rintro ⟨_, ⟨r, hr, rfl⟩, hputs⟩
      exact .inr ⟨r, hr, hputs⟩
    · rintro (hneed | ⟨r, hr, hputs⟩)
      · obtain ⟨hputs, hslots⟩ := ht.puts_plans hfits hplan hneed
        refine ⟨_, ⟨_, ?_, rfl⟩, hputs⟩
        have hvalue : t.value (env.withValues v) =
            1 :: 1 :: BitVec.ofNat 8 t.before.chargeStrategy698.length :: (t.before.chargeStrategy698.map planBytes).flatten := by
          rw [Turn.value, if_pos hplan, if_pos hneed, ← List.flatMap_def]
          rfl
        rw [Turn.Fits, hvalue] at hfits
        have hcount : (t.before.chargeStrategy698.map planBytes).flatten.length = t.before.chargeStrategy698.length * 136 := by
          rw [← List.flatMap_def, List.length_flatMap]
          simp only [planBytes_length, List.map_const', List.sum_replicate_nat]
        simp only [List.length_append, List.length_cons, hcount] at hfits
        rw [hvalue, isResult_cons_one_iff]
        refine .group (.inl rfl) ?_ ?_
        · rw [List.length_map, BitVec.toNat_ofNat, Nat.mod_eq_of_lt (by omega)]
        · intro d hd
          obtain ⟨p, hp, rfl⟩ := List.mem_map.mp hd
          exact isData_planBytes (hslots p hp)
      · exact ⟨_, ⟨r, hr, rfl⟩, hputs⟩
  · rw [if_neg hplan, ← gives_objectRuns_iff env v ht.addr]
    have hputs := ht.puts_object hfits hplan
    constructor
    · rintro ⟨_, ⟨r, hr, rfl⟩, hputs'⟩
      have hsame := List.append_cancel_left (hputs'.eq_added.trans hputs.eq_added.symm)
      rw [Gives, ← hsame]
      exact hr
    · exact fun hgives => ⟨_, ⟨_, hgives, rfl⟩, hputs⟩

/-- In the first pass a plan is not answered at once. -/
theorem Turn.Made.result_of_first_pass (ht : t.Made env afair req) (hplan : t.oad.IsPlan)
    (hneed : ¬ (t.before.kept .chgPlanIssueGet).needPackage = true) : t.result = 2 := by
  obtain ⟨h, h', hrun⟩ := ht.run
  rw [getResponseNormalOad_of_plan (by rw [ht.omd]; exact hplan)] at hrun
  obtain ⟨hsecond, -⟩ | ⟨-, htwo, -⟩ := askedCase_eq_ok hrun
  · exact absurd hsecond hneed
  · exact htwo

/-- After a turn that succeeds there is room for the end of the answer. -/
theorem Turn.Made.dataSize_le (ht : t.Made env afair req) (hfits : t.Fits env) (hzero : t.result = 0) :
    t.after.dataTx.dataSize ≤ 1018 := by
  have hputs : t.Puts (t.oad.bytes ++ t.value env) := by
    by_cases hplan : t.oad.IsPlan
    · by_cases hneed : (t.before.kept .chgPlanIssueGet).needPackage = true
      · exact (ht.puts_plans hfits hplan hneed).1
      · have htwo := ht.result_of_first_pass hplan hneed
        omega
    · have hputs := ht.puts_object hfits hplan
      rwa [Turn.value, if_neg hplan]
  rw [Turn.Fits] at hfits
  have hlen := congrArg List.length hputs
  rw [List.length_append, (stored_contents ht.head.size (by omega)).1, CharPointDataManage.contents, front, List.length_take,
    Vector.length_toList, hplcDataMaxSize] at hlen
  omega

end Turn

/-! ## The answer -/

/-- The service data of a closed frame: what stands between its header and the check of the frame. -/
def CharPointDataManage.sentApdu (d : CharPointDataManage) : List Byte := (d.contents.drop 14).take (d.contents.length - 17)

theorem closeFrame_sentApdu (h : HeadIn d) (hle : d.dataSize ≤ 1020) (hclose : closeFrame d 1 12 false = some (result, d')) :
    d'.sentApdu = d.contents.drop 14 := by
  obtain ⟨g₁, g₂, control, sa, sAddr, ca, g₃, g₄, apdu, hsa, haddr, hlen, hstored⟩ := h.parts (by omega)
  obtain ⟨d₁, hd₁, hframe, -, -⟩ := closeFrame_stored hstored haddr (by omega) false
  cases hclose.symm.trans hd₁
  have hflen := frameOf_length control sa ca apdu haddr
  have hparts : frameOf control sa sAddr ca apdu = headerOf control sa sAddr ca (apdu.length + 15) ++
      check (fcsOf ((headerOf control sa sAddr ca (apdu.length + 15)).drop 1)) ++ (apdu ++
        (check (fcsOf ((bodyOf control sa sAddr ca apdu).drop 1)) ++ [0x16])) := by
    simp only [frameOf, bodyOf, List.append_assoc]
  have hhead : (headerOf control sa sAddr ca (apdu.length + 15) ++
      check (fcsOf ((headerOf control sa sAddr ca (apdu.length + 15)).drop 1))).length = 14 := by
    rw [List.length_append, headerOf_length control sa ca _ haddr]
    rfl
  rw [CharPointDataManage.sentApdu, hframe.contents, hstored.contents, kept_of_le (by omega),
    kept_of_le (by simp [haddr]; omega), hflen, hparts, List.drop_left' hhead, show apdu.length + 17 - 17 = apdu.length by omega,
    List.take_left]
  exact (List.drop_left' (by simp [haddr])).symm

/-- The list of results is complete: an entry for each object asked for, in order, put by its turn of the loop, and nothing else. -/
def ListComplete (req : Request) (piid count : Byte) (ts : List Turn) (d : CharPointDataManage) : Prop :=
  ∃ entries : List (List Byte), entries.length = count.toNat ∧
    (∀ k e, entries[k]? = some e →
      ∃ t, ts[k]? = some t ∧ oadPackage req.usrData (4 + 4 * k) = some t.oad ∧ IsEntry t.oad e ∧ t.Puts e) ∧
    d.sentApdu = [0x85, 2, piid, count] ++ entries.flatten ++ [0, 0]

section Answer

variable {H : Type} {env : Services} {afair : H × Office → Except Stop (H × Office)} {req : Request}

/-- The turns of a list that is answered, the last of which succeeded. -/
theorem list_turns {h h' : H} (hw : Sound w) (hhead : req.head = 0x68) (hkind : req.usr 1 = .ok 2)
    (hsent : getResponsePackage env afair req (h, w) = .ok (0, h', w')) :
    ∃ piid count ts st, req.usr 2 = .ok piid ∧ req.usr 3 = .ok count ∧ ts.length = count.toNat ∧
      Turns env afair req 0 (h, w.opened.put [0x85, 2, piid, count]) ts st ∧ (∃ t, ts.getLast? = some t ∧ t.result = 0) ∧
      closeFrame (putEach st.2.dataTx [0, 0]) 1 12 false = some (0, w'.dataTx) := by
  rw [getResponsePackage_eq, hhead, inFrame_eq hw] at hsent
  obtain ⟨⟨result, h₁, w₁⟩, hbody, hclose⟩ := bind_eq_ok hsent
  dsimp only at hclose
  have hzero : result = 0 := by
    by_contra hne
    rw [if_neg hne] at hclose
    cases hclose
    exact hne rfl
  rw [if_pos hzero] at hclose
  obtain ⟨⟨r, d⟩, hd, hclose⟩ := bind_eq_ok hclose
  cases hclose
  obtain ⟨kind, hkind', hbody⟩ := bind_eq_ok hbody
  cases hkind.symm.trans hkind'
  rw [if_neg (by decide), if_pos rfl] at hbody
  obtain ⟨count, hcount, hbody⟩ := bind_eq_ok hbody
  obtain ⟨kind, hkind', hbody⟩ := bind_eq_ok hbody
  cases hkind.symm.trans hkind'
  obtain ⟨piid, hpiid, hbody⟩ := bind_eq_ok hbody
  obtain ⟨⟨r₂, h₂, w₂⟩, hloop, hbody⟩ := bind_eq_ok hbody
  obtain ⟨ts, hlen, hturns, hlast⟩ := oadLoop_turns _ _ hloop
  dsimp only at hbody
  by_cases hr : r₂ = 0
  · rw [if_pos hr] at hbody
    cases hbody
    refine ⟨piid, count, ts, _, hpiid, hcount, hlen, hturns, ?_, orStop_eq_ok hd⟩
    rw [hr] at hlast
    cases hend : ts.getLast? with
    | none =>
      rw [hend] at hlast
      cases hlast
    | some t =>
      rw [hend] at hlast
      exact ⟨t, rfl, hlast.symm⟩
  · rw [if_neg hr] at hbody
    cases hbody
    exact absurd hzero hr

/-- The desk when the loop starts: the header, and the four bytes in front of the entries. -/
theorem opened_put (hw : Sound w) (piid count : Byte) :
    (w.opened.put [0x85, 2, piid, count]).dataTx.contents.drop 14 = [0x85, 2, piid, count] ∧
      (w.opened.put [0x85, 2, piid, count]).dataTx.dataSize = 18 := by
  obtain ⟨l, hlen, hstored⟩ := Office.opened_stored hw
  have hput : Stored (l ++ [0x85, 2, piid, count]) (w.opened.put [0x85, 2, piid, count]).dataTx := by
    rw [Office.put_dataTx]
    exact hstored.each _ (by simp [hlen])
  rw [hput.contents, kept_of_le (by simp [hlen]), List.drop_left' hlen, hput.dataSize_eq (by simp [hlen]), List.length_append, hlen]
  exact ⟨rfl, rfl⟩

/-- A list without the plan whose last object succeeds is answered with its runs, when they fit. -/
theorem list_answered {oads : List Oad698} {count piid : Byte} (hlists : Lists req oads piid count) (hhead : req.head = 0x68) (h : H)
    (hw : Sound w) (hsa : w.state.addr.sa = 5) (hlast : lastResult env w.state 1 oads = 0)
    (hfits : (oads.flatMap (oadRuns env w.state)).flatten.length ≤ 1000) :
    ∃ w', getResponsePackage env afair req (h, w) = .ok (0, h, w') ∧
      w'.dataTx.sentApdu = [0x85, 2, piid, count] ++ (oads.flatMap (oadRuns env w.state)).flatten ++ [0, 0] := by
  obtain ⟨w₁, hok, hdata⟩ : ∃ w₁, getBody env afair req (h, w.opened) = .ok (0, h, w₁) ∧ _ := getBody_list hlists h w.opened hlast
  rw [show w.opened.state = w.state from rfl] at hdata
  have hopened : HeadIn w.opened.dataTx := openResponse_headIn hw.size _ hw.addr hsa
  have hstart : w.opened.dataTx.dataSize = 14 := by
    obtain ⟨l, hlen, hstored⟩ := Office.opened_stored hw
    rw [hstored.dataSize_eq (by omega), hlen]
  have hputs := puts_foldl w.opened.dataTx (single [0x85, 2, piid, count] ++ oads.flatMap (oadRuns env w.state) ++ single [0, 0])
  rw [← hdata, List.flatten_append, List.flatten_append, single_flatten, single_flatten] at hputs
  have hlen : ([0x85, 2, piid, count] ++ (oads.flatMap (oadRuns env w.state)).flatten ++ [0, 0]).length ≤ 1006 := by
    rw [List.length_append, List.length_append]
    simp only [List.length_cons, List.length_nil]
    omega
  have hin : HeadIn w₁.dataTx := hopened.puts hputs
  have hsize : w₁.dataTx.dataSize ≤ 1020 := Nat.le_trans hputs.dataSize_le (by omega)
  obtain ⟨d', hclose, -⟩ := closeFrame_accepted hin hsize
  refine ⟨{ w₁ with dataTx := d' }, ?_, ?_⟩
  · rw [getResponsePackage_eq, hhead, inFrame_eq hw, hok, ok_bind]
    dsimp only
    rw [if_pos rfl, hclose, orStop, ok_bind]
  · rw [closeFrame_sentApdu hin hsize hclose, hputs.contents hopened.size (by omega)]
    exact List.drop_left' (by rw [(stored_contents hopened.size (by omega)).1, hstart])

end Answer

/-- A request for an object of a class that is not there, and for the total active energy. -/
def gapList : Request := ⟨0x68, [0x05, 0x02, 0x01, 0x02, 0x10, 0x00, 0x02, 0x00, 0x00, 0x10, 0x02, 0x00, 0x00], 13, false, 0⟩

end EnergyRouter
