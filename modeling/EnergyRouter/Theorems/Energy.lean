import EnergyRouter.Lemmas.Meter
import EnergyRouter.Lib.Tally

/-!
# Energy of a day

The half-hour buckets over the samples of a day: when their sum is the consumption since the first sample.
-/

namespace EnergyRouter

open Runs Tally

/-! ## The samples of a day -/

/-- The first and the last sample of a day so far. -/
structure DaySamples where
  first : MeterSample
  last : MeterSample

/-- The meter with the samples of the day. -/
structure Metering where
  meter : Meter
  day : Option DaySamples

/-- One sample. -/
def Metering.step (t : Metering) (a : MeterSample) : Option Metering :=
  (a.calc t.meter).map fun meter => ⟨meter, some ⟨t.day.elim a DaySamples.first, a⟩⟩

/-- The last sample of the day. -/
def Metering.last (t : Metering) : Option MeterSample := t.day.map DaySamples.last

/-- A sample can follow another one on the same day: neither the time nor the total goes back. -/
def Follows (p a : MeterSample) : Prop :=
  p.clock.year = a.clock.year ∧ p.clock.month = a.clock.month ∧ p.clock.day = a.clock.day ∧
    60 * (bcdToInt p.clock.hour).toNat + (bcdToInt p.clock.minute).toNat ≤
      60 * (bcdToInt a.clock.hour).toNat + (bcdToInt a.clock.minute).toNat ∧
    p.meterTotal ≤ a.meterTotal
deriving Decidable

/-- What is asked: the buckets add up to the consumption since the first sample. -/
def Conserved (a : MeterSample) (t : Metering) : Prop :=
  ∃ d, t.day = some d ∧ tally t.meter.meterHalf = a.meterTotal.toNat - d.first.meterTotal.toNat

/-- The first sample of a day: other half-hours are empty or about to be cleared; within a half-hour the total it is counted from is
the total read. -/
def FirstAllowed (s : Meter) (a : MeterSample) : Prop :=
  (StartsDay a.clock s ∨ ∀ i : Fin 48, s.meterHalf.get i = 0 ∨ (i = a.bucket ∧ ¬ AtBoundary a.clock)) ∧
    (¬ AtBoundary a.clock → a.meterTotal = s.evminStart)
deriving Decidable

/-- A later sample: in the first minute of a half-hour nothing was consumed since the sample before; within it, base and bucket
account for everything up to that sample. -/
def LaterAllowed (s : Meter) (p a : MeterSample) : Prop :=
  if AtBoundary a.clock then a.meterTotal = p.meterTotal else s.evminStart + s.meterHalf[a.bucket] = p.meterTotal
deriving Decidable

/-- The tariffs exist, and the sample is allowed as the first or a later one of its day. -/
def SampleAllowed (t : Metering) (a : MeterSample) : Prop :=
  TariffsLegal t.meter.timeNo ∧ t.day.elim (FirstAllowed t.meter a) fun d => LaterAllowed t.meter d.last a

instance : ∀ (t : Metering) (a : MeterSample), Decidable (SampleAllowed t a)
  | ⟨s, none⟩, a => inferInstanceAs (Decidable (TariffsLegal s.timeNo ∧ FirstAllowed s a))
  | ⟨s, some d⟩, a => inferInstanceAs (Decidable (TariffsLegal s.timeNo ∧ LaterAllowed s d.last a))

/-- In the middle of a day: the buckets add up, totals did not go back, and in the first hour the buckets count as cleared. -/
structure DayInv (s : Meter) (d : DaySamples) : Prop where
  conserved : tally s.meterHalf = d.last.meterTotal.toNat - d.first.meterTotal.toNat
  le : d.first.meterTotal ≤ d.last.meterTotal
  cleared : bcdToInt d.last.clock.hour = 0 → s.clearHalf = true

/-- A later sample does not start the day again. -/
theorem DayInv.not_startsDay {s : Meter} {d : DaySamples} (h : DayInv s d) {a : MeterSample} (ha : Follows d.last a) :
    ¬ StartsDay a.clock s := by
  rintro ⟨hhour, hclear⟩
  obtain ⟨-, -, -, htime, -⟩ := ha
  have hminute := a.minute_lt
  have hlast : bcdToInt d.last.clock.hour = 0 := by
    rw [hhour] at htime
    have hzero : (0 : Byte).toNat = 0 := rfl
    exact BitVec.eq_of_toNat_eq (by omega)
  exact absurd (h.cleared hlast) (by rw [hclear]; exact Bool.false_ne_true)

theorem tally_first_iff (s : Meter) (a : MeterSample) : tally (a.halves s) = 0 ↔ FirstAllowed s a := by
  have hbase : ∀ i : Fin 48, (startDay a.clock s).meterHalf[i] = 0 ↔ StartsDay a.clock s ∨ s.meterHalf[i] = 0 := by
    intro i
    by_cases hstarts : StartsDay a.clock s
    · rw [startDay_meterHalf_of_starts hstarts]
      simp [hstarts]
    · rw [startDay_meterHalf_of_not hstarts]
      simp [hstarts]
  have hget : ∀ i : Fin 48, s.meterHalf.get i = s.meterHalf[i] := fun _ => rfl
  unfold MeterSample.halves FirstAllowed
  simp only [hget]
  by_cases hboundary : AtBoundary a.clock
  · rw [if_pos hboundary, tally_eq_zero_iff]
    simp only [hbase, hboundary, not_true_eq_false, and_false, or_false, forall_or_left, false_imp_iff, and_true]
  · rw [if_neg hboundary, tally_set_eq_zero_iff, sub_eq_zero, and_comm]
    simp only [hbase, hboundary, not_false_eq_true, and_true, true_imp_iff]
    refine and_congr_left fun _ => ?_
    constructor
    · intro h
      by_cases hstarts : StartsDay a.clock s
      · exact .inl hstarts
      · refine .inr fun i => ?_
        by_cases hi : i = a.bucket
        · exact .inr hi
        · exact .inl ((h i hi).resolve_left hstarts)
    · rintro (hstarts | hothers) i hi
      · exact .inl hstarts
      · exact .inr ((hothers i).resolve_right hi)

theorem DayInv.tally_later_iff {s : Meter} {d : DaySamples} (h : DayInv s d) {a : MeterSample} (ha : Follows d.last a) :
    tally (a.halves s) = a.meterTotal.toNat - d.first.meterTotal.toNat ↔ LaterAllowed s d.last a := by
  have hfirst : d.first.meterTotal.toNat ≤ d.last.meterTotal.toNat := h.le
  have htotal : d.last.meterTotal.toNat ≤ a.meterTotal.toNat := ha.2.2.2.2
  have hconserved := h.conserved
  unfold MeterSample.halves LaterAllowed
  rw [startDay_meterHalf_of_not (h.not_startsDay ha)]
  by_cases hboundary : AtBoundary a.clock
  · rw [if_pos hboundary, if_pos hboundary, ← BitVec.toNat_inj]
    omega
  · rw [if_neg hboundary, if_neg hboundary, ← BitVec.toNat_inj, BitVec.toNat_add]
    have hset := tally_set s.meterHalf a.bucket (a.meterTotal - s.evminStart)
    have hle := le_tally s.meterHalf a.bucket
    rw [BitVec.toNat_sub] at hset
    have := a.meterTotal.isLt
    have := s.evminStart.isLt
    omega

/-- The invariant of a run: nothing at its start, the one above in the middle of the day. -/
def Metering.Inv (t : Metering) : Prop := ∀ d, t.day = some d → DayInv t.meter d

theorem Metering.Inv.step_iff {t : Metering} (h : t.Inv) {a : MeterSample} (ha : ∀ p, t.last = some p → Follows p a) :
    SampleAllowed t a ↔ ∃ t', t.step a = some t' ∧ Conserved a t' := by
  have hadds : tally (a.halves t.meter) = a.meterTotal.toNat - (t.day.elim a DaySamples.first).meterTotal.toNat ↔
      t.day.elim (FirstAllowed t.meter a) fun d => LaterAllowed t.meter d.last a := by
    cases hday : t.day with
    | none => rw [Option.elim_none, Option.elim_none, Nat.sub_self, tally_first_iff]
    | some d => exact (h d hday).tally_later_iff (ha d.last (by rw [Metering.last, hday, Option.map_some]))
  refine ((a.calc_outcome t.meter).map _).and_iff ?_
  rintro t' ⟨s', ⟨hhalf, -⟩, rfl⟩
  rw [← hadds, ← hhalf]
  constructor
  · intro hsum
    exact ⟨_, rfl, hsum⟩
  · rintro ⟨d, hd, hsum⟩
    cases hd
    exact hsum

theorem Metering.Inv.step {t t' : Metering} (h : t.Inv) {a : MeterSample} (ha : ∀ p, t.last = some p → Follows p a)
    (hstep : t.step a = some t') (hgood : Conserved a t') : t'.Inv := by
  obtain ⟨s', ⟨-, hcleared⟩, rfl⟩ := ((a.calc_outcome t.meter).map _).post_of_some hstep
  obtain ⟨d, hd, hsum⟩ := hgood
  cases hd
  intro d hd
  cases hd
  refine ⟨hsum, ?_, hcleared⟩
  cases hday : t.day with
  | none => exact BitVec.le_refl _
  | some d =>
    have htotal := (ha d.last (by rw [Metering.last, hday, Option.map_some])).2.2.2.2
    exact BitVec.le_trans (h d hday).le htotal

/-- Over every list of samples of one day, neither times nor totals going back, and from every state of the meter: after each of
them the buckets add up to the consumption since the first sample, exactly when each of them is allowed in the state it finds. -/
theorem energy_conserved_iff (s : Meter) {samples : List MeterSample} (hday : samples.IsChain Follows) :
    Meets Metering.step SampleAllowed ⟨s, none⟩ samples ↔ Keeps Metering.step Conserved ⟨s, none⟩ samples := by
  have hlast : ∀ (t : Metering) a t', t.step a = some t' → t'.last = some a := by
    intro t a t' ht'
    obtain ⟨meter, -, rfl⟩ := Option.map_eq_some_iff.mp ht'
    rfl
  have hdom : Meets Metering.step (fun t a => ∀ p, t.last = some p → Follows p a) ⟨s, none⟩ samples :=
    meets_of_isChain hlast hday
  have hinv : (⟨s, none⟩ : Metering).Inv := by
    intro d hd
    cases hd
  refine meets_iff_keeps_within ?_ ?_ hinv hdom
  · exact fun t a h ha => h.step_iff ha
  · exact fun t a t' h ha ht' hgood => h.step ha ht' hgood

/-- Samples that find each half-hour begin with the total the one before ended with. -/
theorem energy_conserved_continuous :
    Keeps Metering.step Conserved ⟨powerUpMeter, none⟩
      [maySample 0x00 0x00 100 (by decide), maySample 0x00 0x10 150 (by decide), maySample 0x00 0x29 170 (by decide),
        maySample 0x00 0x30 170 (by decide), maySample 0x00 0x45 200 (by decide)] :=
  (energy_conserved_iff powerUpMeter (by decide)).mp (by decide +kernel)

/-- Two samples of the first half-hour and two of the next. -/
def boundarySamples : List MeterSample :=
  [maySample 0x00 0x00 100 (by decide), maySample 0x00 0x10 150 (by decide), maySample 0x00 0x30 200 (by decide),
    maySample 0x00 0x40 230 (by decide)]

/-- Of 130 units consumed since midnight, the fifty between the last sample before half past and the first one after are in no
bucket. -/
theorem energy_lost_at_boundary :
    boundarySamples.IsChain Follows ∧
    (boundarySamples.foldlM Metering.step ⟨powerUpMeter, none⟩).map
      (fun t => (tally t.meter.meterHalf, t.day.map fun d => d.first.meterTotal)) = some (80, some 100) ∧
    ¬ Keeps Metering.step Conserved ⟨powerUpMeter, none⟩ boundarySamples := by
  have hrun : (boundarySamples.foldlM Metering.step ⟨powerUpMeter, none⟩).map
      (fun t => (tally t.meter.meterHalf, t.day.map fun d => d.first.meterTotal)) = some (80, some 100) := by decide +kernel
  refine ⟨by decide, hrun, ?_⟩
  rintro ⟨t₁, h₁, -, t₂, h₂, -, t₃, h₃, -, t₄, h₄, ⟨d, hd, hsum⟩, -⟩
  simp only [boundarySamples, List.foldlM_cons, List.foldlM_nil, h₁, h₂, h₃, h₄, Option.bind_eq_bind, Option.bind_some,
    Option.pure_def, Option.map_some, hd, hsum, Option.some.injEq, Prod.mk.injEq] at hrun
  obtain ⟨heighty, hfirst⟩ := hrun
  rw [hfirst] at heighty
  exact absurd heighty (by decide)

end EnergyRouter
