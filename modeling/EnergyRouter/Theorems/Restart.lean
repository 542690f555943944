import EnergyRouter.Lemmas.Meter
import EnergyRouter.Lib.Tally

/-!
# The half-hours over a restart

After a restart the half-hours are read back, and the running one should go on from its stored value. The main result says when it
does, for every restart and every course of the rest of the half-hour.
-/

namespace EnergyRouter

open Runs Tally

variable {c d : SystemTime} {t t' : MeterThread}

/-! ## Restarts -/

/-- A turn of the loop at a time of some day; `reply` is the total of a valid reply, if one came. -/
structure MeterTurn where
  clock : SystemTime
  reply : Option (BitVec 32)
  legal : TimeLegal clock
  hour_lt : (bcdToInt clock.hour).toNat < 24
  minute_lt : (bcdToInt clock.minute).toNat < 60

def MeterThread.step (t : MeterThread) (a : MeterTurn) : Option MeterThread := t.turn a.clock a.reply

/-- A time is in the half-hour of another one, and not before it. -/
structure Proceeds (c d : SystemTime) : Prop where
  year : c.year = d.year
  month : c.month = d.month
  day : c.day = d.day
  hour : c.hour = d.hour
  half : (bcdToInt c.minute).toNat / 30 = (bcdToInt d.minute).toNat / 30
  minute : (bcdToInt c.minute).toNat ≤ (bcdToInt d.minute).toNat

/-- What is stored, the time of the start, the turns without a reply, the turn with the first one, which brings `total`, and the
later turns of the half-hour. -/
structure Restart where
  storedTimeNo : Option (Vector Byte 48)
  storedHalf : Vector (BitVec 32) 48
  clock : SystemTime
  waits : List MeterTurn
  first : MeterTurn
  total : BitVec 32
  later : List MeterTurn
  hour_lt : (bcdToInt clock.hour).toNat < 24
  minute_lt : (bcdToInt clock.minute).toNat < 60
  waits_reply : ∀ a ∈ waits, a.reply = none
  first_reply : first.reply = some total
  ordered : List.IsChain Proceeds (clock :: (waits ++ first :: later).map MeterTurn.clock)

namespace Restart

variable (r : Restart)

/-- The thread in front of its loop. -/
def begun : MeterThread := meterThreadEntry r.storedTimeNo (some r.storedHalf) r.clock

/-- The half-hour of the restart. -/
def bucket : Fin 48 :=
  ⟨bucketOf r.clock, by
    have := r.hour_lt
    have := r.minute_lt
    unfold bucketOf
    omega⟩

/-- The first half-hour of the hour of the restart. -/
def hourBucket : Fin 48 :=
  ⟨(bcdToInt r.clock.hour).toNat * 2, by
    have := r.hour_lt
    omega⟩

/-- The half-hours are the stored ones, the running one with what the meter went on by since the first reply. -/
def Continued (t : MeterThread) : Prop :=
  ∀ i : Fin 48, t.meter.meterHalf[i] = if i = r.bucket then r.storedHalf[i] + (t.meterTotal - r.total) else r.storedHalf[i]
deriving Decidable

/-- What is asked: with the first reply and ever after in this half-hour, the half-hours are continued. -/
def Continues : Prop :=
  ∃ t, run MeterThread.step r.begun r.waits = some t ∧ Keeps MeterThread.step (fun _ t => r.Continued t) t (r.first :: r.later)

/-- The first turn, with or without a reply. -/
def firstTurn : MeterTurn := r.waits.headD r.first

/-- The total the half-hour is counted from: the one known in its first minute, or nothing less what the first half-hour of the hour
held. -/
def base : BitVec 32 :=
  if AtBoundary r.firstTurn.clock then r.firstTurn.reply.getD 0 else 0 - r.storedHalf[r.hourBucket]

/-- The tariffs exist; in the first hour of a day there was nothing in the other half-hours, and in the first minute of a half-hour
nothing in this one either; in that minute the total does not move; and after it, the base and the stored value are what the first
reply brought. -/
structure Undisturbed : Prop where
  tariffs : TariffsLegal r.begun.meter.timeNo
  midnight : bcdToInt r.clock.hour = 0 → ∀ i, r.storedHalf[i] = 0 ∨ i = r.bucket ∧ ¬ AtBoundary r.first.clock
  resting : ∀ a ∈ r.later, AtBoundary a.clock → ∀ total ∈ a.reply, total = r.total
  counted : ∀ a ∈ r.first :: r.later, ¬ AtBoundary a.clock → r.base + r.storedHalf[r.bucket] = r.total

end Restart

/-! ## Times of one half-hour -/

theorem Proceeds.atBoundary (h : Proceeds c d) (hd : AtBoundary d) : AtBoundary c := by
  unfold AtBoundary at hd ⊢
  have := h.half
  have := h.minute
  omega

theorem Proceeds.trans {e : SystemTime} (h : Proceeds c d) (h' : Proceeds d e) : Proceeds c e :=
  ⟨h.year.trans h'.year, h.month.trans h'.month, h.day.trans h'.day, h.hour.trans h'.hour, h.half.trans h'.half,
    h.minute.trans h'.minute⟩

theorem Proceeds.bucketOf (h : Proceeds c d) : bucketOf d = bucketOf c := by
  rw [EnergyRouter.bucketOf, EnergyRouter.bucketOf, h.hour, h.half]

/-! ## One turn -/

/-- The sample a turn makes. -/
def MeterTurn.sample (a : MeterTurn) (t : MeterThread) : MeterSample :=
  ⟨a.clock, a.reply.getD t.meterTotal, a.legal, a.hour_lt, a.minute_lt⟩

theorem MeterThread.step_sample {a : MeterTurn} (h : t.step a = some t') :
    t'.meterTotal = a.reply.getD t.meterTotal ∧ (a.sample t).calc t.meter = some t'.meter := by
  obtain ⟨meter, hmeter, rfl⟩ := Option.map_eq_some_iff.mp h
  exact ⟨rfl, hmeter⟩

theorem MeterThread.step_isSome (t : MeterThread) (a : MeterTurn) : (t.step a).isSome ↔ TariffsLegal t.meter.timeNo := by
  have hcalc := (a.sample t).calc_outcome t.meter
  have hstep : t.step a = ((a.sample t).calc t.meter).map fun meter => ⟨a.reply.getD t.meterTotal, meter⟩ := rfl
  rw [hstep, Option.isSome_map]
  constructor
  · intro hsome
    by_contra hnot
    rw [hcalc.stuck hnot] at hsome
    cases hsome
  · intro hlegal
    obtain ⟨s', hs', -⟩ := hcalc.returned hlegal
    rw [hs']
    rfl

namespace Restart

variable {r : Restart}

/-- The stored half-hours, or none when the day begins. -/
def kept (r : Restart) : Vector (BitVec 32) 48 := if bcdToInt r.clock.hour = 0 then Vector.replicate 48 0 else r.storedHalf

/-- The thread after a turn at some time of the half-hour. -/
structure At (r : Restart) (clock : SystemTime) (t : MeterThread) : Prop where
  since : Proceeds r.clock clock
  timeNo : t.meter.timeNo = r.begun.meter.timeNo
  start : t.meter.evminStart = r.base
  noted : t.meter.totalStart = decide (AtBoundary clock)
  cleared : t.meter.clearHalf = decide (bcdToInt r.clock.hour = 0)
  halves : t.meter.meterHalf = if AtBoundary clock then r.kept else r.kept.setIfInBounds r.bucket (t.meterTotal - r.base)

theorem begun_eq (r : Restart) : r.begun = ⟨0, ⟨r.storedHalf, zeroPower, ⟨zeroPower, zeroPower⟩,
    r.storedTimeNo.getD (cmMeterGJFModeInit (Vector.replicate 48 0)), 0 - r.storedHalf[r.hourBucket], false, false, false, []⟩⟩ := by
  have hget : r.storedHalf.getD ((bcdToInt r.clock.hour).toNat * 2) 0 = r.storedHalf[r.hourBucket] := by
    have hlt : (bcdToInt r.clock.hour).toNat * 2 < 48 := r.hourBucket.isLt
    simp [Vector.getD, Array.getD, hourBucket, hlt]
  simp only [begun, meterThreadEntry, if_pos r.hour_lt, Option.getD_some, hget]

theorem bucket_sample {a : MeterTurn} (h : Proceeds r.clock a.clock) (t : MeterThread) : (a.sample t).bucket = r.bucket :=
  Fin.ext h.bucketOf

theorem at_of_begun (hfirst : Proceeds r.clock r.firstTurn.clock) (h : r.begun.step r.firstTurn = some t) :
    At r r.firstTurn.clock t := by
  obtain ⟨htotal, hcalc⟩ := MeterThread.step_sample h
  obtain ⟨hstart, hnoted, htimeNo, hclear⟩ := MeterSample.calc_registers hcalc
  obtain ⟨hhalves, -⟩ := ((r.firstTurn.sample r.begun).calc_outcome r.begun.meter).post_of_some hcalc
  have hhour : bcdToInt r.firstTurn.clock.hour = bcdToInt r.clock.hour := by rw [hfirst.hour]
  have hbase : t.meter.evminStart = r.base := by
    rw [hstart, base, begun_eq]
    simp only [MeterTurn.sample, and_true]
  have hkept : (startDay r.firstTurn.clock r.begun.meter).meterHalf = r.kept := by
    by_cases hzero : bcdToInt r.clock.hour = 0
    · have hstarts : StartsDay r.firstTurn.clock r.begun.meter := ⟨hhour.trans hzero, by rw [begun_eq]⟩
      rw [startDay_meterHalf_of_starts hstarts, kept, if_pos hzero]
    · rw [startDay_meterHalf_of_not fun hstarts => hzero (hhour.symm.trans hstarts.1), kept, if_neg hzero, begun_eq]
  refine ⟨hfirst, htimeNo, hbase, hnoted, ?_, ?_⟩
  · rw [hclear]
    exact decide_eq_decide.mpr (by rw [← hhour]; exact Iff.rfl)
  · rw [hhalves, MeterSample.halves, bucket_sample hfirst]
    show (if AtBoundary r.firstTurn.clock then (startDay r.firstTurn.clock r.begun.meter).meterHalf
      else (startDay r.firstTurn.clock r.begun.meter).meterHalf.setIfInBounds r.bucket
        (r.firstTurn.reply.getD r.begun.meterTotal - r.begun.meter.evminStart)) = _
    by_cases hboundary : AtBoundary r.firstTurn.clock
    · rw [if_pos hboundary, if_pos hboundary, hkept]
    · rw [if_neg hboundary, if_neg hboundary, hkept, htotal, base, if_neg hboundary]
      rw [begun_eq]

theorem At.step {a : MeterTurn} (h : At r c t) (ha : Proceeds c a.clock) (hstep : t.step a = some t') : At r a.clock t' := by
  obtain ⟨htotal, hcalc⟩ := MeterThread.step_sample hstep
  obtain ⟨hstart, hnoted, htimeNo, hclear⟩ := MeterSample.calc_registers hcalc
  obtain ⟨hhalves, -⟩ := ((a.sample t).calc_outcome t.meter).post_of_some hcalc
  have hsince := h.since.trans ha
  have hhour : bcdToInt a.clock.hour = bcdToInt r.clock.hour := by rw [hsince.hour]
  -- a turn in the first minute comes after one in the first minute, which noted the total
  have hbase : t'.meter.evminStart = r.base := by
    rw [hstart, if_neg, h.start]
    rintro ⟨hboundary, hnot⟩
    rw [h.noted, decide_eq_true (ha.atBoundary hboundary)] at hnot
    cases hnot
  have hnotStarts : ¬ StartsDay a.clock t.meter := by
    rintro ⟨hzero, hnot⟩
    rw [h.cleared, decide_eq_true (hhour.symm.trans hzero)] at hnot
    cases hnot
  refine ⟨hsince, htimeNo.trans h.timeNo, hbase, hnoted, ?_, ?_⟩
  · rw [hclear]
    exact decide_eq_decide.mpr (by rw [← hhour]; exact Iff.rfl)
  · rw [hhalves, MeterSample.halves, bucket_sample hsince]
    show (if AtBoundary a.clock then (startDay a.clock t.meter).meterHalf
      else (startDay a.clock t.meter).meterHalf.setIfInBounds r.bucket (a.reply.getD t.meterTotal - t.meter.evminStart)) = _
    rw [startDay_meterHalf_of_not hnotStarts, h.halves, h.start, ← htotal]
    by_cases hboundary : AtBoundary a.clock
    · rw [if_pos hboundary, if_pos hboundary, if_pos (ha.atBoundary hboundary)]
    · rw [if_neg hboundary, if_neg hboundary]
      split_ifs
      · rfl
      · exact Vector.setIfInBounds_setIfInBounds _

/-! ## The turns of the half-hour -/

/-- Turns without a reply end at some time of the half-hour. -/
theorem At.run (h : At r c t) (htariffs : TariffsLegal r.begun.meter.timeNo) {turns rest : List MeterTurn}
    (hordered : List.IsChain Proceeds (c :: (turns ++ rest).map MeterTurn.clock)) :
    ∃ c' t', Runs.run MeterThread.step t turns = some t' ∧ At r c' t' ∧
      List.IsChain Proceeds (c' :: rest.map MeterTurn.clock) := by
  induction turns generalizing c t with
  | nil => exact ⟨c, t, rfl, h, hordered⟩
  | cons a turns ih =>
    obtain ⟨ha, hrest⟩ := List.isChain_cons_cons.mp hordered
    have hsome := (t.step_isSome a).mpr (h.timeNo ▸ htariffs)
    obtain ⟨t₁, ht₁⟩ := Option.isSome_iff_exists.mp hsome
    obtain ⟨c', t', ht', hat, hchain⟩ := ih (h.step ha ht₁) hrest
    exact ⟨c', t', by rw [Runs.run, ht₁, Option.bind_some, ht'], hat, hchain⟩

/-- What the half-hours have to meet at a time, with a total. -/
def Fits (r : Restart) (clock : SystemTime) (meterTotal : BitVec 32) : Prop :=
  (∀ i, i ≠ r.bucket → r.kept[i] = r.storedHalf[i]) ∧
    if AtBoundary clock then r.kept[r.bucket] = r.storedHalf[r.bucket] + (meterTotal - r.total)
    else r.base + r.storedHalf[r.bucket] = r.total

theorem At.continued_iff (h : At r c t) : r.Continued t ↔ Fits r c t.meterTotal := by
  have hsplit : r.Continued t ↔ (∀ i, i ≠ r.bucket → t.meter.meterHalf[i] = r.storedHalf[i]) ∧
      t.meter.meterHalf[r.bucket] = r.storedHalf[r.bucket] + (t.meterTotal - r.total) := by
    constructor
    · intro hall
      exact ⟨fun i hi => by rw [hall i, if_neg hi], by rw [hall r.bucket, if_pos rfl]⟩
    · rintro ⟨hothers, hthis⟩ i
      split_ifs with hi
      · rw [hi, hthis]
      · exact hothers i hi
  rw [hsplit, Fits, h.halves]
  by_cases hboundary : AtBoundary c
  · simp only [hboundary, if_true]
  · simp only [hboundary, if_false, getElem_set, if_true]
    refine and_congr ?_ ?_
    · refine forall_congr' fun i => forall_congr' fun hi => ?_
      rw [if_neg hi]
    · -- the total cancels
      constructor
      · intro heq
        have hsum : t.meterTotal - r.base - (t.meterTotal - r.total) = r.storedHalf[r.bucket] := by
          rw [heq, add_sub_cancel_right]
        rw [← hsum, sub_sub_sub_cancel_left, add_sub_cancel]
      · intro heq
        rw [← heq, sub_add_eq_sub_sub, add_sub_cancel]

/-- What a later turn has to meet. -/
def TurnFits (r : Restart) (a : MeterTurn) : Prop :=
  if AtBoundary a.clock then ∀ total ∈ a.reply, total = r.total else r.base + r.storedHalf[r.bucket] = r.total

/-- A later turn continues the half-hours exactly when it meets what it has to. -/
theorem At.step_iff {a : MeterTurn} (h : At r c t) (hfits : Fits r c t.meterTotal)
    (hresting : AtBoundary c → t.meterTotal = r.total) (ha : Proceeds c a.clock) (hstep : t.step a = some t') :
    (r.Continued t' ↔ TurnFits r a) ∧ (TurnFits r a → AtBoundary a.clock → t'.meterTotal = r.total) := by
  obtain ⟨hothers, hthis⟩ := hfits
  have htotal := (MeterThread.step_sample hstep).1
  rw [(h.step ha hstep).continued_iff, Fits, TurnFits, htotal]
  by_cases hboundary : AtBoundary a.clock
  · have hbefore := ha.atBoundary hboundary
    have hrest := hresting hbefore
    rw [if_pos hbefore, hrest, sub_self, add_zero] at hthis
    rw [if_pos hboundary, if_pos hboundary, hthis, hrest]
    cases hreply : a.reply with
    | none =>
      rw [Option.getD_none, sub_self, add_zero]
      exact ⟨⟨fun _ total htotal => absurd htotal (Option.not_mem_none total), fun _ => ⟨hothers, rfl⟩⟩, fun _ _ => rfl⟩
    | some total =>
      rw [Option.getD_some, left_eq_add, sub_eq_zero]
      constructor
      · constructor
        · rintro ⟨-, heq⟩ total' hmem
          rw [← Option.mem_some_iff.mp hmem]
          exact heq
        · intro hturn
          exact ⟨hothers, hturn total rfl⟩
      · exact fun hturn _ => hturn total rfl
  · simp only [hboundary, if_false, iff_true_intro hothers, true_and, false_imp_iff, implies_true, and_self]

/-- The later turns continue the half-hours exactly when each of them meets what it has to. -/
theorem At.keeps_iff (h : At r c t) (htariffs : TariffsLegal r.begun.meter.timeNo) (hfits : Fits r c t.meterTotal)
    (hresting : AtBoundary c → t.meterTotal = r.total) {turns : List MeterTurn}
    (hordered : List.IsChain Proceeds (c :: turns.map MeterTurn.clock)) :
    Keeps MeterThread.step (fun _ t => r.Continued t) t turns ↔ ∀ a ∈ turns, TurnFits r a := by
  induction turns generalizing c t with
  | nil => exact ⟨fun _ a ha => absurd ha List.not_mem_nil, fun _ => trivial⟩
  | cons a turns ih =>
    obtain ⟨ha, hrest⟩ := List.isChain_cons_cons.mp hordered
    have hsome := (t.step_isSome a).mpr (h.timeNo ▸ htariffs)
    obtain ⟨t₁, ht₁⟩ := Option.isSome_iff_exists.mp hsome
    obtain ⟨hiff, hresting₁⟩ := h.step_iff hfits hresting ha ht₁
    have hat := h.step ha ht₁
    rw [List.forall_mem_cons, ← hiff]
    constructor
    · rintro ⟨t', ht', hcontinued, hkeeps⟩
      cases ht₁.symm.trans ht'
      exact ⟨hcontinued, (ih hat (hat.continued_iff.mp hcontinued) (hresting₁ (hiff.mp hcontinued)) hrest).mp hkeeps⟩
    · rintro ⟨hcontinued, hturns⟩
      exact ⟨t₁, ht₁, hcontinued, (ih hat (hat.continued_iff.mp hcontinued) (hresting₁ (hiff.mp hcontinued)) hrest).mpr hturns⟩

/-- The turn with the first reply is at some time of the half-hour, when the tariffs exist. -/
theorem at_first (r : Restart) (htariffs : TariffsLegal r.begun.meter.timeNo) :
    ∃ t t₁, Runs.run MeterThread.step r.begun r.waits = some t ∧ t.step r.first = some t₁ ∧ At r r.first.clock t₁ ∧
      t₁.meterTotal = r.total := by
  have htotal : ∀ t t₁ : MeterThread, t.step r.first = some t₁ → t₁.meterTotal = r.total := by
    intro t t₁ ht₁
    rw [(MeterThread.step_sample ht₁).1, r.first_reply, Option.getD_some]
  have hordered := r.ordered
  have hbegun := (r.begun.step_isSome r.firstTurn).mpr htariffs
  obtain ⟨t₀, ht₀⟩ := Option.isSome_iff_exists.mp hbegun
  have hat : Proceeds r.clock r.firstTurn.clock → At r r.firstTurn.clock t₀ := fun hproceeds => at_of_begun hproceeds ht₀
  cases hwaits : r.waits with
  | nil =>
    have hturn : r.firstTurn = r.first := by rw [firstTurn, hwaits, List.headD_nil]
    rw [hturn] at ht₀ hat
    rw [hwaits] at hordered
    have hproceeds := (List.isChain_cons_cons.mp hordered).1
    exact ⟨r.begun, t₀, rfl, ht₀, hat hproceeds, htotal _ _ ht₀⟩
  | cons w ws =>
    have hturn : r.firstTurn = w := by rw [firstTurn, hwaits, List.headD_cons]
    rw [hturn] at ht₀ hat
    rw [hwaits] at hordered
    obtain ⟨hproceeds, hrest⟩ := List.isChain_cons_cons.mp hordered
    obtain ⟨c, t, ht, hat', hchain⟩ := (hat hproceeds).run htariffs hrest
    have hfirst := (List.isChain_cons_cons.mp hchain).1
    have hsome := (t.step_isSome r.first).mpr (hat'.timeNo ▸ htariffs)
    obtain ⟨t₁, ht₁⟩ := Option.isSome_iff_exists.mp hsome
    exact ⟨t, t₁, by rw [Runs.run, ht₀, Option.bind_some, ht], ht₁, hat'.step hfirst ht₁, htotal _ _ ht₁⟩

/-- A thread that got as far as the first reply found tariffs that exist. -/
theorem tariffs_of_continues (h : r.Continues) : TariffsLegal r.begun.meter.timeNo := by
  obtain ⟨t, ht, t₁, ht₁, -⟩ := h
  refine (r.begun.step_isSome r.firstTurn).mp ?_
  cases hwaits : r.waits with
  | nil =>
    rw [hwaits] at ht
    cases ht
    rw [firstTurn, hwaits, List.headD_nil, ht₁]
    rfl
  | cons w ws =>
    rw [hwaits] at ht
    obtain ⟨t₀, ht₀, -⟩ := Option.bind_eq_some_iff.mp ht
    rw [firstTurn, hwaits, List.headD_cons, ht₀]
    rfl

/-- What the half-hours have to meet with the first reply, in terms of what is stored. -/
theorem fits_first_iff (r : Restart) : Fits r r.first.clock r.total ↔
    (bcdToInt r.clock.hour = 0 → ∀ i, r.storedHalf[i] = 0 ∨ i = r.bucket ∧ ¬ AtBoundary r.first.clock) ∧
      (¬ AtBoundary r.first.clock → r.base + r.storedHalf[r.bucket] = r.total) := by
  have hcleared : bcdToInt r.clock.hour = 0 → ∀ i : Fin 48, r.kept[i] = r.storedHalf[i] ↔ r.storedHalf[i] = 0 := by
    intro hzero i
    rw [kept, if_pos hzero]
    simp only [Fin.getElem_fin, Vector.getElem_replicate, eq_comm]
  have hstored : bcdToInt r.clock.hour ≠ 0 → r.kept = r.storedHalf := fun hne => if_neg hne
  rw [Fits, sub_self, add_zero]
  by_cases hzero : bcdToInt r.clock.hour = 0
  · have hkept := hcleared hzero
    by_cases hboundary : AtBoundary r.first.clock
    · simp only [hkept, hboundary, if_true, hzero, true_imp_iff, not_true_eq_false, and_false, or_false, false_imp_iff, and_true]
      constructor
      · rintro ⟨hothers, hthis⟩ i
        by_cases hi : i = r.bucket
        · rw [hi]
          exact hthis
        · exact hothers i hi
      · intro hall
        exact ⟨fun i _ => hall i, hall _⟩
    · simp only [hkept, hboundary, if_false, hzero, true_imp_iff, not_false_eq_true, and_true]
      refine and_congr_left fun _ => forall_congr' fun i => ?_
      rw [or_comm, or_iff_not_imp_left]
  · simp only [hstored hzero, hzero, false_imp_iff, true_and, implies_true, if_true_left]

end Restart

/-- The half-hours go on from their stored values over a restart exactly when it is undisturbed. -/
theorem restart_continues_iff (r : Restart) : r.Continues ↔ r.Undisturbed := by
  by_cases htariffs : TariffsLegal r.begun.meter.timeNo
  · obtain ⟨t, t₁, ht, ht₁, hat, htotal⟩ := r.at_first htariffs
    have hordered : List.IsChain Proceeds (r.first.clock :: r.later.map MeterTurn.clock) := by
      have hall := r.ordered
      rw [List.map_append, List.map_cons, ← List.cons_append] at hall
      exact hall.right_of_append
    have hfirst := hat.continued_iff
    rw [htotal, r.fits_first_iff] at hfirst
    have hlater : r.Continued t₁ → (Keeps MeterThread.step (fun _ t => r.Continued t) t₁ r.later ↔ ∀ a ∈ r.later, r.TurnFits a) :=
      fun hcontinued => hat.keeps_iff htariffs (hat.continued_iff.mp hcontinued) (fun _ => htotal) hordered
    constructor
    · rintro ⟨t', ht', t₁', ht₁', hcontinued, hkeeps⟩
      cases ht.symm.trans ht'
      cases ht₁.symm.trans ht₁'
      have hturns := (hlater hcontinued).mp hkeeps
      obtain ⟨hmidnight, hcounted⟩ := hfirst.mp hcontinued
      refine ⟨htariffs, hmidnight, ?_, ?_⟩
      · intro a ha hboundary
        have hturn := hturns a ha
        rwa [Restart.TurnFits, if_pos hboundary] at hturn
      · intro a ha hboundary
        rcases List.mem_cons.mp ha with rfl | ha
        · exact hcounted hboundary
        · have hturn := hturns a ha
          rwa [Restart.TurnFits, if_neg hboundary] at hturn
    · rintro ⟨-, hmidnight, hresting, hcounted⟩
      have hcontinued := hfirst.mpr ⟨hmidnight, hcounted r.first List.mem_cons_self⟩
      refine ⟨t, ht, t₁, ht₁, hcontinued, (hlater hcontinued).mpr ?_⟩
      intro a ha
      rw [Restart.TurnFits]
      split_ifs with hboundary
      · exact hresting a ha hboundary
      · exact hcounted a (List.mem_cons_of_mem _ ha) hboundary
  · exact ⟨fun h => absurd (Restart.tariffs_of_continues h) htariffs, fun h => absurd h.tariffs htariffs⟩

/-- A restart at ten minutes past an hour, with seven units stored and the default tariffs. The first reply comes at once. -/
def sevenStored (hour : Byte)
    (h : TimeLegal ⟨0x00, 0x10, hour, 0x17, 0x05, 0x05, 0x20⟩ ∧ (bcdToInt hour).toNat < 24) : Restart where
  storedTimeNo := none
  storedHalf := Vector.replicate 48 7
  clock := ⟨0x00, 0x10, hour, 0x17, 0x05, 0x05, 0x20⟩
  waits := []
  first := ⟨⟨0x00, 0x10, hour, 0x17, 0x05, 0x05, 0x20⟩, some 1000, h.1, h.2, (by decide : (bcdToInt 0x10).toNat < 60)⟩
  total := 1000
  later := []
  hour_lt := h.2
  minute_lt := (by decide : (bcdToInt 0x10).toNat < 60)
  waits_reply := by simp
  first_reply := rfl
  ordered := List.isChain_pair.mpr ⟨rfl, rfl, rfl, rfl, rfl, Nat.le_refl _⟩

/-- In the morning the total of the meter is added to the stored value; at midnight all the stored values are lost. -/
theorem restart_disturbs :
    ((sevenStored 0x10 (by decide)).begun.step (sevenStored 0x10 (by decide)).first).map
      (fun t => t.meter.meterHalf[20]) = some 1007 ∧
    ((sevenStored 0x00 (by decide)).begun.step (sevenStored 0x00 (by decide)).first).map
      (fun t => t.meter.meterHalf[20]) = some 0 ∧
    ¬ (sevenStored 0x10 (by decide)).Continues ∧ ¬ (sevenStored 0x00 (by decide)).Continues := by
  refine ⟨by decide +kernel, by decide +kernel, ?_, ?_⟩
  · rintro ⟨t, ht, hkeeps⟩
    cases ht
    exact absurd hkeeps (by decide +kernel)
  · rintro ⟨t, ht, hkeeps⟩
    cases ht
    exact absurd hkeeps (by decide +kernel)

end EnergyRouter
