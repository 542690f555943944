import EnergyRouter.Lemmas.Requests
import EnergyRouter.Objects

/-!
# What the answer to a get request holds

The routines store runs of bytes and never look whether one was stored. `storeRuns` is what is left in the buffer: a run that does
not fit is missing, and later ones may be there.
-/

namespace EnergyRouter

open Buffer

variable {l : List Byte} {d d' : CharPointDataManage} {links : Nat → Link} {t t' : Talk} {attr : EsamAttribute} {result : Int}
    {w : Office}

/-! ## Runs of bytes -/

/-- The bytes in the buffer after runs were stored behind `l`. -/
def storeRuns : List Byte → List (List Byte) → List Byte
  | l, [] => l
  | l, run :: runs => storeRuns (if l.length + run.length ≤ 1023 then l ++ run else l) runs

theorem storeRuns_length_le (h : l.length ≤ 1023) (runs : List (List Byte)) :
    (storeRuns l runs).length ≤ 1023 := by
  induction runs generalizing l with
  | nil => exact h
  | cons run runs ih =>
    refine ih ?_
    split_ifs with hfits
    · rw [List.length_append]
      exact hfits
    · exact h

/-- The number of bytes in use after runs of these lengths. -/
def usedAfter (used : Nat) (lengths : List Nat) : Nat :=
  lengths.foldl (fun used n => if used + n ≤ 1023 then used + n else used) used

theorem storeRuns_length (l : List Byte) (runs : List (List Byte)) :
    (storeRuns l runs).length = usedAfter l.length (runs.map List.length) := by
  induction runs generalizing l with
  | nil => rfl
  | cons run runs ih =>
    rw [storeRuns, ih, List.map_cons, usedAfter, usedAfter, List.foldl_cons]
    congr 1
    split_ifs
    · exact List.length_append
    · rfl

theorem Stored.put_of_not_fits (h : Stored l d) (hle : l.length ≤ 1023) {bs : List Byte} (hbs : ¬ l.length + bs.length ≤ 1023) :
    putBytes d bs = d := by
  have hsize := h.dataSize_eq hle
  rw [putBytes, saveCharPointData, if_neg (by omega), if_neg (by rw [h.size, hplcDataMaxSize]; omega)]

theorem Stored.runs (h : Stored l d) (hle : l.length ≤ 1023) (runs : List (List Byte)) :
    Stored (storeRuns l runs) (runs.foldl putBytes d) := by
  induction runs generalizing l d with
  | nil => exact h
  | cons run runs ih =>
    rw [storeRuns, List.foldl_cons]
    by_cases hfits : l.length + run.length ≤ 1023
    · rw [if_pos hfits]
      exact ih (h.put run hfits) (by rw [List.length_append]; exact hfits)
    · rw [if_neg hfits, h.put_of_not_fits hle hfits]
      exact ih h hle

theorem putEach_eq_foldl (d : CharPointDataManage) (bs : List Byte) : putEach d bs = (single bs).foldl putBytes d := by
  rw [putEach, single, List.foldl_map]

@[simp] theorem single_flatten (bs : List Byte) : (single bs).flatten = bs := by
  induction bs with
  | nil => rfl
  | cons b bs ih => exact congrArg (b :: ·) ih

/-! ## The runs of an object -/

/-- An OAD as it is written. -/
def Oad698.bytes (o : Oad698) : List Byte := [o.oi0, o.oi1, o.attributeId, o.attributeIndex]

/-- The result for an object of the charge interface other than the plan, and the runs stored behind its OAD. -/
def chargeRuns (env : Services) (s : State698) (o : Oad698) : Int × List (List Byte) :=
  if o.oi1 = 0x08 ∧ o.attributeId = 2 then
    ((env.object .esamInfo s o).1, single [1, 1] ++ (env.object .esamInfo s o).2)
  else (-1, [])

/-- The result for an object and the runs stored behind its OAD, for any object but the plan. -/
def objectRuns (env : Services) (s : State698) (o : Oad698) : Int × List (List Byte) :=
  let cls := (o.oi0 &&& 0xf0) >>> 4
  if cls = 0 then env.object .electrical s o
  else if cls = 2 then env.object .variable s o
  else if cls = 4 then env.object .parameter s o
  else if cls = 9 then if o.oi0 &&& 0x0f = 0 then chargeRuns env s o else (-1, [])
  else if cls = 0xf then env.object .esam s o
  else (-1, [])

/-- All runs of an object. -/
def oadRuns (env : Services) (s : State698) (o : Oad698) : List (List Byte) := single o.bytes ++ (objectRuns env s o).2

/-- A result and runs, stored. -/
def Office.storing (w : Office) (runs : List (List Byte)) : Office := { w with dataTx := runs.foldl putBytes w.dataTx }

theorem Office.storing_dataTx (w : Office) (runs : List (List Byte)) :
    (w.storing runs).dataTx = runs.foldl putBytes w.dataTx := by rw [Office.storing]

theorem Office.storing_nil (w : Office) : w.storing [] = w := rfl

theorem Office.storing_append (w : Office) (runs runs' : List (List Byte)) :
    w.storing (runs ++ runs') = (w.storing runs).storing runs' := by
  simp only [Office.storing, List.foldl_append]

theorem Office.put_eq_storing (w : Office) (bytes : List Byte) : w.put bytes = w.storing (single bytes) := by
  rw [Office.put, putEach_eq_foldl, Office.storing]

/-! ## The objects of the security chip -/

theorem EsamAttribute.store_eq (attr : EsamAttribute) {comm : ScmEsamComm} (hlen : comm.dataRxLen ≤ 1024)
    (d : CharPointDataManage) :
    attr.store comm.rx comm.dataRxLen (attr.open d) = ((attr.runs comm).1, (attr.runs comm).2.foldl putBytes d) := by
  cases attr with
  | octets n =>
    simp only [EsamAttribute.store, EsamAttribute.open, EsamAttribute.runs, getDataClass, classRuns, putEach_eq_foldl]
    by_cases hshort : comm.dataRxLen < 12
    · rw [if_pos hshort, if_pos hshort, List.foldl_append]
    · have hsize : ((comm.dataRxLen : Int) - 5) = ((comm.dataRxLen - 5 : Nat) : Int) := by omega
      have htake : comm.dataRxLen - 5 ≤ (comm.rx.drop 4).length := by
        rw [List.length_drop, ScmEsamComm.rx, Vector.length_toList]
        omega
      rw [if_neg hshort, if_neg hshort, List.foldl_append, List.foldl_append]
      generalize (single [BitVec.ofInt 8 ((comm.dataRxLen : Int) - 5)]).foldl putBytes ((single [0x01, 9]).foldl putBytes d) = d'
      rw [hsize, saveCharPointData_take d' _ htake]
      rfl
  | counters =>
    simp only [EsamAttribute.store, EsamAttribute.open, EsamAttribute.runs, getDataClass, classRuns, putEach_eq_foldl]
    by_cases hshort : comm.dataRxLen < 12
    · rw [if_pos hshort, if_pos hshort, List.foldl_append]
    · rw [if_neg hshort, if_neg hshort, List.foldl_append, List.foldl_append]
      simp only [List.flatMap_cons, List.flatMap_nil, List.foldl_cons, List.foldl_nil, List.cons_append, List.nil_append,
        List.append_nil, single, List.map_cons, List.map_nil]

theorem Talk.exchange_made {cmd : EsamCmd} (h : t.exchange links cmd = some t') :
    ∃ x, t'.made = t.made ++ [x] ∧ x.comm = t'.esam.comm := by
  obtain ⟨⟨res, e⟩, -, h⟩ := Option.bind_eq_some_iff.mp h
  cases h
  exact ⟨_, rfl, rfl⟩

/-- The buffer of the chip after exchange number `k` of a call. -/
def Talk.commAt (t : Talk) (k : Nat) : ScmEsamComm := ((t.made[k]?).map Exchange.comm).getD t.esam.comm

theorem oiEsamLoop_made (n : Nat) (h : oiEsamLoop links attr n (d, t) = some (result, d', t')) : t.made <+: t'.made := by
  induction n generalizing d t with
  | zero =>
    cases h
    exact List.prefix_rfl
  | succ n ih =>
    obtain ⟨t₁, hexchange, h⟩ := Option.bind_eq_some_iff.mp h
    obtain ⟨x, hmade, -⟩ := Talk.exchange_made hexchange
    have hstep : t.made <+: t₁.made := ⟨[x], hmade.symm⟩
    split at h
    · cases h
      exact hstep
    · exact hstep.trans (ih h)

theorem oiEsamLoop_eq (n : Nat) (h : oiEsamLoop links attr n (d, t) = some (result, d', t'))
    (hlen : ∀ x ∈ t'.made, x.comm.dataRxLen ≤ 1024) :
    result = (esamLoopRuns attr t'.commAt n t.made.length).1 ∧
      d' = (esamLoopRuns attr t'.commAt n t.made.length).2.foldl putBytes d := by
  induction n generalizing d t with
  | zero =>
    cases h
    refine ⟨rfl, ?_⟩
    rw [putEach_eq_foldl]
    rfl
  | succ n ih =>
    obtain ⟨t₁, hexchange, h⟩ := Option.bind_eq_some_iff.mp h
    obtain ⟨x, hmade, hcomm⟩ := Talk.exchange_made hexchange
    change t₁.made = t.made ++ [x] at hmade
    have hlen₁ : t₁.made.length = t.made.length + 1 := by
      rw [hmade, List.length_append]
      rfl
    -- the exchange of this attempt is still the one with its number when the call ends
    have hprefix : t₁.made <+: t'.made := by
      split at h
      · cases h
        exact List.prefix_rfl
      · exact oiEsamLoop_made n h
    have hcell : t'.made[t.made.length]? = some x := by
      obtain ⟨more, hmore⟩ := hprefix
      rw [← hmore, hmade]
      simp
    have hat : t'.commAt t.made.length = t₁.esam.comm := by
      rw [Talk.commAt, hcell, ← hcomm]
      rfl
    have hfits : t₁.esam.comm.dataRxLen ≤ 1024 := by
      rw [← hcomm]
      exact hlen x (List.mem_of_getElem? hcell)
    rw [attr.store_eq hfits, ← hat] at h
    rw [esamLoopRuns]
    cases hanswered : (attr.runs (t'.commAt t.made.length)).1 with
    | true =>
      rw [hanswered] at h
      cases h
      rw [if_pos rfl]
      exact ⟨rfl, rfl⟩
    | false =>
      rw [hanswered] at h
      obtain ⟨hresult, hd'⟩ := ih h
      rw [hlen₁] at hresult hd'
      rw [if_neg Bool.false_ne_true, List.foldl_append]
      exact ⟨hresult, hd'⟩

/-- `oi_esam_oib` stores its runs, over every bus, for replies that are no longer than the buffer. -/
theorem oiEsamOib_eq {oad : Oad698} {e : Esam} (h : oiEsamOib links oad (d, ⟨e, []⟩) = some (result, d', t'))
    (hlen : ∀ x ∈ t'.made, x.comm.dataRxLen ≤ 1024) :
    result = (esamOibRuns t'.commAt oad).1 ∧ d' = (esamOibRuns t'.commAt oad).2.foldl putBytes d := by
  simp only [oiEsamOib] at h
  rw [esamOibRuns]
  split_ifs at h ⊢ with hoi
  · cases hattr : esamAttribute oad.attributeId with
    | some attr =>
      rw [hattr] at h
      have hloop := oiEsamLoop_eq 5 h hlen
      rw [List.length_nil] at hloop
      exact hloop
    | none =>
      rw [hattr] at h
      cases h
      refine ⟨rfl, ?_⟩
      rw [putEach_eq_foldl]
  · cases h
    exact ⟨rfl, rfl⟩

/-- Over a bus that cannot be taken. -/
theorem oiEsamOib_eq_bus_refused : ∃ d' t', oiEsamOib (fun _ => ⟨0, Vector.replicate 1024 0, ⟨false, fun _ => 0⟩⟩) ⟨0xf1, 0, 2, 0⟩
    (zeroBuffer, ⟨zeroEsam, []⟩) = some (-1, d', t') ∧ d' = (esamOibRuns t'.commAt ⟨0xf1, 0, 2, 0⟩).2.foldl putBytes zeroBuffer := by
  have hcall : (oiEsamOib (fun _ => ⟨0, Vector.replicate 1024 0, ⟨false, fun _ => 0⟩⟩) ⟨0xf1, 0, 2, 0⟩ (zeroBuffer, ⟨zeroEsam, []⟩)).map
      (fun r => (r.1, r.2.2.made.map (·.comm.dataRxLen))) = some (-1, List.replicate 5 0) := by
    decide +kernel
  obtain ⟨⟨result, d', t'⟩, h, hr⟩ := Option.map_eq_some_iff.mp hcall
  obtain ⟨rfl, hmade⟩ := Prod.mk.inj hr
  refine ⟨d', t', h, (oiEsamOib_eq h fun x hx => ?_).2⟩
  have hzero := hmade ▸ List.mem_map_of_mem hx
  rw [List.eq_of_mem_replicate hzero]
  exact Nat.zero_le _

section Objects

variable {H : Type} {env : Services} {afair : H × Office → Except Stop (H × Office)} {req : Request}

theorem Office.putObject_eq (w : Office) (cls : ObjectClass) :
    w.putObject env cls = ((env.object cls w.state w.oadOmd).1, w.storing (env.object cls w.state w.oadOmd).2) := rfl

theorem oiChargeOib_eq (hplan : w.oadOmd.oi1 = 0x01 → ¬ w.oadOmd.attributeId = 2) (h : H) :
    oiChargeOib env afair req (h, w) =
      .ok ((chargeRuns env w.state w.oadOmd).1, h, w.storing (chargeRuns env w.state w.oadOmd).2) := by
  simp only [oiChargeOib, chargeRuns]
  by_cases hone : w.oadOmd.oi1 = 0x01
  · have height : ¬ w.oadOmd.oi1 = 0x08 := by
      rw [hone]
      decide
    rw [if_pos hone, if_neg (hplan hone), if_neg fun hall => height hall.1, Office.storing_nil]
  · rw [if_neg hone]
    by_cases height : w.oadOmd.oi1 = 0x08
    · rw [if_pos height]
      by_cases hattr : w.oadOmd.attributeId = 2
      · rw [if_pos hattr, if_pos ⟨height, hattr⟩, Office.putObject_eq, Office.put_eq_storing, Office.storing_append]
        rfl
      · rw [if_neg hattr, if_neg fun hall => hattr hall.2, Office.storing_nil]
    · rw [if_neg height, if_neg fun hall => height hall.1, Office.storing_nil]

theorem getResponseNormalOad_eq (hplan : ¬ w.oadOmd.IsPlan) (h : H) :
    getResponseNormalOad env afair req (h, w) =
      .ok ((objectRuns env w.state w.oadOmd).1, h, w.storing (oadRuns env w.state w.oadOmd)) := by
  have hoad : w.putOad = w.storing (single w.oadOmd.bytes) := Office.put_eq_storing w _
  rw [oadRuns, Office.storing_append]
  simp only [getResponseNormalOad, getResponseChargeOia, objectRuns, hoad]
  generalize hstored : w.storing (single w.oadOmd.bytes) = w'
  have homd : w'.oadOmd = w.oadOmd := by rw [← hstored, Office.storing]
  have hstate : w'.state = w.state := by rw [← hstored, Office.storing]
  simp only [Office.putObject_eq, homd, hstate]
  by_cases h0 : (w.oadOmd.oi0 &&& 0xf0) >>> 4 = 0
  · simp only [if_pos h0]
  by_cases h2 : (w.oadOmd.oi0 &&& 0xf0) >>> 4 = 2
  · simp only [if_neg h0, if_pos h2]
  by_cases h4 : (w.oadOmd.oi0 &&& 0xf0) >>> 4 = 4
  · simp only [if_neg h0, if_neg h2, if_pos h4]
  by_cases h9 : (w.oadOmd.oi0 &&& 0xf0) >>> 4 = 9
  · simp only [if_neg h0, if_neg h2, if_neg h4, if_pos h9]
    by_cases hlow : w.oadOmd.oi0 &&& 0x0f = 0
    · rw [if_pos hlow, if_pos hlow, oiChargeOib_eq, homd, hstate]
      rw [homd]
      exact fun hoi hattr => hplan ⟨⟨h9, hlow⟩, hoi, hattr⟩
    · rw [if_neg hlow, if_neg hlow, Office.storing_nil]
  by_cases hf : (w.oadOmd.oi0 &&& 0xf0) >>> 4 = 0xf
  · simp only [if_neg h0, if_neg h2, if_neg h4, if_neg h9, if_pos hf]
  · simp only [if_neg h0, if_neg h2, if_neg h4, if_neg h9, if_neg hf, Office.storing_nil]

/-- What `get_response_package` does between opening and closing the frame. -/
def getBody (env : Services) (afair : H × Office → Except Stop (H × Office)) (req : Request) :
    H × Office → Except Stop (Int × H × Office) := fun (h, w) => do
  let kind ← req.usr 1
  if kind = 1 then getResponsePackageNormal env afair req (h, w)
  else if kind = 2 then getResponsePackageNormalList env afair req (h, w)
  else .ok (-1, h, w)

theorem getResponsePackage_eq : getResponsePackage env afair req = inFrame req.head (getBody env afair req) := rfl

/-- The result a list ends with: that of its last object. -/
def lastResult (env : Services) (s : State698) (result : Int) (oads : List Oad698) : Int :=
  oads.foldl (fun _ o => (objectRuns env s o).1) result

/-- The loop over objects none of which is the plan stores their runs. -/
theorem oadLoop_eq (oads : List Oad698) (i : Nat) (result : Int) (h : H) (w : Office)
    (hoads : ∀ k o, oads[k]? = some o → oadPackage req.usrData (4 + 4 * (i + k)) = some o ∧ ¬ o.IsPlan) :
    ∃ w', oadLoop env afair req oads.length i (result, h, w) = .ok (lastResult env w.state result oads, h, w') ∧
      w'.dataTx = (oads.flatMap (oadRuns env w.state)).foldl putBytes w.dataTx ∧ w'.state = w.state := by
  induction oads generalizing i result w with
  | nil => exact ⟨w, rfl, rfl, rfl⟩
  | cons o oads ih =>
    obtain ⟨hpackage, hplan⟩ := hoads 0 o rfl
    have hone : getResponseNormalOad env afair req (h, { w with oadOmd := o }) =
        .ok ((objectRuns env w.state o).1, h, Office.storing { w with oadOmd := o } (oadRuns env w.state o)) :=
      getResponseNormalOad_eq (w := { w with oadOmd := o }) hplan h
    obtain ⟨w', hloop, hdata, hstate⟩ := ih (i + 1) (objectRuns env w.state o).1
      (Office.storing { w with oadOmd := o } (oadRuns env w.state o)) fun k o' ho' => by
        have hnext := hoads (k + 1) o' ho'
        rwa [show i + (k + 1) = i + 1 + k by omega] at hnext
    refine ⟨w', ?_, ?_, hstate⟩
    · rw [List.length_cons, oadLoop]
      rw [Nat.add_zero] at hpackage
      rw [hpackage]
      show (getResponseNormalOad env afair req (h, { w with oadOmd := o }) >>=
        fun st => oadLoop env afair req oads.length (i + 1) st) = _
      rw [hone]
      exact hloop
    · rw [hdata, Office.storing_dataTx, List.flatMap_cons, List.foldl_append]
      rfl

/-- The request is for a list of objects none of which is the plan. -/
structure Lists (req : Request) (oads : List Oad698) (piid count : Byte) : Prop where
  usr1 : req.usr 1 = .ok 2
  usr2 : req.usr 2 = .ok piid
  usr3 : req.usr 3 = .ok count
  length : count.toNat = oads.length
  objects : ∀ k o, oads[k]? = some o → oadPackage req.usrData (4 + 4 * k) = some o ∧ ¬ o.IsPlan

theorem lists_one {o : Oad698} {piid : Byte} (h1 : req.usr 1 = .ok 2) (h2 : req.usr 2 = .ok piid) (h3 : req.usr 3 = .ok 1)
    (ho : oadPackage req.usrData 4 = some o) (hplan : ¬ o.IsPlan) : Lists req [o] piid 1 := by
  refine ⟨h1, h2, h3, rfl, fun k o' ho' => ?_⟩
  cases k with
  | zero =>
    cases ho'
    exact ⟨ho, hplan⟩
  | succ k => cases ho'

/-- Such a list is answered with the runs of its objects when the last of them succeeds. -/
theorem getBody_list {oads : List Oad698} {count piid : Byte} (hlists : Lists req oads piid count) (h : H) (w : Office)
    (hlast : lastResult env w.state 1 oads = 0) :
    ∃ w', getBody env afair req (h, w) = .ok (0, h, w') ∧
      w'.dataTx = (single [0x85, 2, piid, count] ++ oads.flatMap (oadRuns env w.state) ++ single [0, 0]).foldl putBytes w.dataTx := by
  have hput : (w.put [0x85, 2, piid, count]).state = w.state := rfl
  have hall : ∃ w', oadLoop env afair req oads.length 0 (1, h, w.put [0x85, 2, piid, count]) =
      .ok (lastResult env (w.put [0x85, 2, piid, count]).state 1 oads, h, w') ∧
        w'.dataTx = (oads.flatMap (oadRuns env (w.put [0x85, 2, piid, count]).state)).foldl putBytes
          (w.put [0x85, 2, piid, count]).dataTx ∧ w'.state = (w.put [0x85, 2, piid, count]).state :=
    oadLoop_eq oads 0 1 h _ (by simpa only [Nat.zero_add] using hlists.objects)
  rw [hput, hlast] at hall
  obtain ⟨w', hloop, hdata, -⟩ := hall
  simp only [getBody, getResponsePackageNormalList, hlists.usr1, hlists.usr2, hlists.usr3]
  rw [← hlists.length] at hloop
  show ∃ w'', ((oadLoop env afair req count.toNat 0 (1, h, w.put [0x85, 2, piid, count]) >>= fun x =>
    if x.1 = 0 then Except.ok (0, x.2.1, x.2.2.put [0, 0]) else .ok (x.1, x.2.1, x.2.2)) : Except Stop (Int × H × Office)) = _ ∧ _
  rw [hloop]
  refine ⟨w'.put [0, 0], rfl, ?_⟩
  rw [Office.put_dataTx, putEach_eq_foldl, hdata, Office.put_dataTx, putEach_eq_foldl, List.foldl_append, List.foldl_append]

end Objects

end EnergyRouter
