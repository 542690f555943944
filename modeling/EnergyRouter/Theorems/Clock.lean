import EnergyRouter.Theorems.PlanWriting

/-!
# The clock

`RtState_Judge` compares fields in BCD with limits in binary, and nothing takes the fault back: a clock that is right has it every
day. And the time is read register by register, while the clock goes on.
-/

namespace EnergyRouter

/-! ## Its fault -/

/-- `RtState_Judge`: `Clock_Fau` after it. -/
def rtStateJudge (clockFau : Bool) (now : SystemTime) : Bool :=
  clockFau || decide (50 < now.year.toNat ∨ 12 < now.month.toNat ∨ 31 < now.day.toNat ∨ 23 < now.hour.toNat ∨ 60 < now.minute.toNat)

/-- `strategy_thread_entry`: `Clock_Fau` after a turn at each of some times. -/
def strategyThread (times : List SystemTime) : Bool := times.foldl rtStateJudge false

/-- Against which numbers the limits are, read in BCD. -/
theorem bcd_limits (x : Byte) :
    (IsBcd x 99 → (50 < x.toNat ↔ 33 ≤ bcdValue x)) ∧ (IsBcd x 12 → (12 < x.toNat ↔ 10 ≤ bcdValue x)) ∧
      (IsBcd x 31 → (31 < x.toNat ↔ 20 ≤ bcdValue x)) ∧ (IsBcd x 23 → (23 < x.toNat ↔ 18 ≤ bcdValue x)) ∧
        (IsBcd x 59 → (60 < x.toNat ↔ 40 ≤ bcdValue x)) := by
  revert x
  decide +kernel

theorem foldl_rtStateJudge (times : List SystemTime) (clockFau : Bool) :
    times.foldl rtStateJudge clockFau = true ↔ clockFau = true ∨ ∃ now ∈ times, rtStateJudge false now = true := by
  induction times generalizing clockFau with
  | nil => simp
  | cons now times ih =>
    rw [List.foldl_cons, ih, List.exists_mem_cons_iff, ← or_assoc]
    simp [rtStateJudge]

/-- Over every run at valid times: the clock has its fault exactly when one of the times was in the year 2033 or later, in the last
three months of a year, from the twentieth day of a month on, from 18 o'clock on or from the fortieth minute of an hour on. -/
theorem clock_fault_iff (times : List SystemTime) (hvalid : ∀ now ∈ times, ValidTime now) :
    strategyThread times = true ↔ ∃ now ∈ times, 33 ≤ bcdValue now.year ∨ 10 ≤ bcdValue now.month ∨ 20 ≤ bcdValue now.day ∨
      18 ≤ bcdValue now.hour ∨ 40 ≤ bcdValue now.minute := by
  rw [strategyThread, foldl_rtStateJudge]
  simp only [Bool.false_eq_true, false_or]
  refine exists_congr fun now => and_congr_right fun hnow => ?_
  obtain ⟨hyear, ⟨hmonth, -⟩, ⟨hday, -⟩, hhour, hminute, -⟩ := hvalid now hnow
  rw [rtStateJudge, Bool.false_or, decide_eq_true_iff, (bcd_limits now.year).1 hyear, (bcd_limits now.month).2.1 hmonth,
    (bcd_limits now.day).2.2.1 hday, (bcd_limits now.hour).2.2.2.1 hhour, (bcd_limits now.minute).2.2.2.2 hminute]

/-- At 9:39 and 9:40 on the first of August 2019. -/
theorem clock_fault_fortieth_minute :
    strategyThread [⟨0, 0x39, 9, 1, 4, 8, 0x19⟩] = false ∧ strategyThread [⟨0, 0x39, 9, 1, 4, 8, 0x19⟩, ⟨0, 0x40, 9, 1, 4, 8, 0x19⟩] = true := by
  have hvalid : ∀ now ∈ ([⟨0, 0x39, 9, 1, 4, 8, 0x19⟩, ⟨0, 0x40, 9, 1, 4, 8, 0x19⟩] : List SystemTime), ValidTime now := by
    simp only [List.forall_mem_cons, List.not_mem_nil]
    refine ⟨?_, ?_, fun _ h => h.elim⟩ <;> constructor <;> decide
  exact ⟨by decide, (clock_fault_iff _ hvalid).mpr (by decide)⟩

/-! ## Reading it -/

/-- The registers of the time, from that of the seconds on. -/
abbrev RtcTime := Vector Byte 7

/-- The loop of `get_rtc_timestamp` over the last `n` registers, with a transfer for each: `bus i` is what the chip has then, if the
transfer succeeds. -/
def getRtcTimestamp (bus : Nat → Option RtcTime) : Nat → RtcTime → RtErr × RtcTime
  | 0, time => (.eok, time)
  | n + 1, time =>
    match bus (6 - n) with
    | some shown => getRtcTimestamp bus n (time.set (6 - n) shown[6 - n])
    | none => (.error, time)

/-- The time without the flags of the registers. -/
def RtcTime.masked (time : RtcTime) : RtcTime := Vector.zipWith (· &&& ·) time #v[0x7f, 0x7f, 0x3f, 0x3f, 0x07, 0x1f, 0xff]

/-- `pcf8563_control` with `RT_DEVICE_CTRL_RTC_GET_TIME`. -/
def pcf8563Control (bus : Nat → Option RtcTime) (time : RtcTime) : RtErr × RtcTime :=
  match getRtcTimestamp bus 7 time with
  | (.eok, time) => (.eok, RtcTime.masked time)
  | failed => failed

/-- Each register is read as the chip has it at its own transfer. -/
theorem getRtcTimestamp_eq (shown : Nat → RtcTime) {n : Nat} (hn : n ≤ 7) (time : RtcTime) :
    ∃ read, getRtcTimestamp (fun i => some (shown i)) n time = (.eok, read) ∧
      ∀ i (h : i < 7), read[i] = if i < 7 - n then time[i] else (shown i)[i] := by
  induction n generalizing time with
  | zero => exact ⟨time, rfl, fun i h => (if_pos h).symm⟩
  | succ n ih =>
    obtain ⟨read, hread, hcells⟩ := ih (by omega) (time.set (6 - n) (shown (6 - n))[6 - n])
    refine ⟨read, hread, fun i h => ?_⟩
    rw [hcells i h]
    rcases Nat.lt_trichotomy i (6 - n) with hlt | rfl | hgt
    · rw [if_pos (by omega), if_pos (by omega), Vector.getElem_set_ne (by omega) h (by omega)]
    · rw [if_pos (by omega), if_neg (by omega), Vector.getElem_set_self]
    · rw [if_neg (by omega), if_neg (by omega)]

/-- The clock goes on in front of transfer `k` of a reading. Then the time that is read is one the clock had exactly when it goes on in
front of the first transfer, or changes no register that is read behind it. -/
theorem clock_read_iff (before after time : RtcTime) (k : Nat) (hsecond : before.masked[0] ≠ after.masked[0]) :
    ∃ read, pcf8563Control (fun i => some (if i < k then before else after)) time = (.eok, read) ∧
      (read = before.masked ∨ read = after.masked ↔ k = 0 ∨ ∀ i (h : i < 7), k ≤ i → before.masked[i] = after.masked[i]) := by
  obtain ⟨read, hread, hcells⟩ := getRtcTimestamp_eq (fun i => if i < k then before else after) (Nat.le_refl 7) time
  have hmasked (i : Nat) (h : i < 7) : read.masked[i] = if i < k then before.masked[i] else after.masked[i] := by
    simp only [RtcTime.masked, Vector.getElem_zipWith, hcells i h]
    split_ifs <;> first | omega | rfl
  refine ⟨read.masked, by rw [pcf8563Control, hread], ?_, ?_⟩
  · rintro (hbefore | hafter)
    · exact .inr fun i h hk => by rw [← hbefore, hmasked i h, if_neg (by omega)]
    · refine .inl (Nat.eq_zero_of_not_pos fun hk => hsecond ?_)
      rw [← hafter, hmasked 0 (by omega), if_pos hk]
  · rintro (rfl | hsame)
    · exact .inr (Vector.ext fun i h => by rw [hmasked i h, if_neg (by omega)])
    · refine .inl (Vector.ext fun i h => ?_)
      rw [hmasked i h]
      split_ifs with hk
      · rfl
      · exact (hsame i h (by omega)).symm

/-- At 10:59:59 the seconds are read, the other registers a second later: the time that is read is 11:00:59. -/
theorem clock_read_torn : ∃ read, pcf8563Control
    (fun i => some (if i < 1 then #v[0x59, 0x59, 0x10, 1, 4, 8, 0x19] else #v[0, 0, 0x11, 1, 4, 8, 0x19])) (Vector.replicate 7 0) =
      (.eok, read) ∧ ¬(read = RtcTime.masked #v[0x59, 0x59, 0x10, 1, 4, 8, 0x19] ∨ read = RtcTime.masked #v[0, 0, 0x11, 1, 4, 8, 0x19]) := by
  obtain ⟨read, hread, hiff⟩ := clock_read_iff #v[0x59, 0x59, 0x10, 1, 4, 8, 0x19] #v[0, 0, 0x11, 1, 4, 8, 0x19]
    (Vector.replicate 7 0) 1 (by decide +kernel)
  exact ⟨read, hread, fun h => absurd (hiff.mp h) (by decide +kernel)⟩

end EnergyRouter
