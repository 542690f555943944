import EnergyRouter.Lib.Runs
import EnergyRouter.PileSend
import Mathlib.Tactic.IntervalCases

/-!
# What the pile makes of frames laid out by its own sender

The telemetry and the time, from the bytes `Inform_Communicate_Can` sends to the values the handlers set. One current is joined with
a shift by seven; the week is not shifted back, the fields of the time are kept as if they were binary, and after the first timing
frame no other is looked at.
-/

namespace EnergyRouter

open Runs

variable {msg : CanMsg} {now : SystemTime} {s : Pile}

/-! ## Telemetry -/

/-- The telemetry frames are taken in order. -/
def takeYc (msgs : List CanMsg) (s : Pile) : Pile := msgs.foldl (fun s msg => recYcRecDataFrame msg s) s

/-- The six values. -/
def Yc.phases (yc : Yc) : List (BitVec 16) := [yc.chargVa, yc.chargVb, yc.chargVc, yc.chargIa, yc.chargIb, yc.chargIc]

/-! ### One frame -/

theorem recYcRecDataFrame_first (h : msg.byte 0 = 1) (s : Pile) :
    (recYcRecDataFrame msg s).yc = { s.yc with chargVa := msg.byte 6 ++ msg.byte 5 } ∧
      (recYcRecDataFrame msg s).chgYc.tempanalog = msg.byte 7 := by
  simp [recYcRecDataFrame, h, Pile.ident]

theorem recYcRecDataFrame_second (h : msg.byte 0 = 2) (s : Pile) :
    (recYcRecDataFrame msg s).yc = { s.yc with
      chargVb := msg.byte 1 ++ s.chgYc.tempanalog
      chargVc := msg.byte 3 ++ msg.byte 2
      chargIa := msg.byte 5 ++ msg.byte 4
      chargIb := ((msg.byte 7).setWidth 16 <<< 7) + (msg.byte 6).setWidth 16 } := by
  simp [recYcRecDataFrame, h]

theorem recYcRecDataFrame_third (h : msg.byte 0 = 3) (s : Pile) :
    (recYcRecDataFrame msg s).yc =
      { s.yc with chargIc := msg.byte 2 ++ msg.byte 1, vCp1 := msg.byte 4 ++ msg.byte 3, tempt1 := msg.byte 7 } := by
  simp [recYcRecDataFrame, h]

theorem recYcRecDataFrame_fourth (h : msg.byte 0 = 4) (s : Pile) :
    (recYcRecDataFrame msg s).yc = { s.yc with tempt2 := msg.byte 1, tempt3 := msg.byte 2, tempt4 := msg.byte 3 } := by
  simp [recYcRecDataFrame, h]

/-! ### The four frames -/

/-- What becomes of the six values: all of them arrive but the current of phase B. -/
theorem takeYc_phases (chargIdent : Byte) (yc : Yc) (electricity chrgTime : BitVec 16) (s : Pile) :
    (takeYc (informYc chargIdent yc electricity chrgTime) s).yc.phases =
      [yc.chargVa, yc.chargVb, yc.chargVc, yc.chargIa,
        (((yc.chargIb >>> 8).setWidth 8 : Byte).setWidth 16 <<< 7) + (yc.chargIb.setWidth 8 : Byte).setWidth 16, yc.chargIc] := by
  rw [takeYc, informYc]
  simp only [List.foldl_cons, List.foldl_nil]
  rw [recYcRecDataFrame_fourth rfl, recYcRecDataFrame_third rfl, recYcRecDataFrame_second rfl, (recYcRecDataFrame_first rfl s).1,
    (recYcRecDataFrame_first rfl s).2]
  change [(yc.chargVa >>> 8).setWidth 8 ++ yc.chargVa.setWidth 8, (yc.chargVb >>> 8).setWidth 8 ++ yc.chargVb.setWidth 8,
    (yc.chargVc >>> 8).setWidth 8 ++ yc.chargVc.setWidth 8, (yc.chargIa >>> 8).setWidth 8 ++ yc.chargIa.setWidth 8, _,
    (yc.chargIc >>> 8).setWidth 8 ++ yc.chargIc.setWidth 8] = _
  simp only [high_append_low]
  rfl

/-- A shift by seven joins a value only when its high byte is zero. -/
theorem shift_seven_eq_iff (value : BitVec 16) :
    ((((value >>> 8).setWidth 8 : Byte).setWidth 16 <<< 7) + (value.setWidth 8 : Byte).setWidth 16 : BitVec 16) = value ↔
      value.toNat < 256 := by
  rw [← BitVec.toNat_inj]
  have hvalue := value.isLt
  simp only [BitVec.toNat_add, BitVec.toNat_shiftLeft, BitVec.toNat_setWidth, BitVec.toNat_ushiftRight, Nat.shiftLeft_eq,
    Nat.shiftRight_eq_div_pow]
  omega

/-- The four frames of the sender give the handler of the receiver all six values exactly when the current of phase B fits in a
byte: whatever the other values, and whatever the receiver had before. -/
theorem telemetry_exact_iff (chargIdent : Byte) (yc : Yc) (electricity chrgTime : BitVec 16) (s : Pile) :
    (takeYc (informYc chargIdent yc electricity chrgTime) s).yc.phases = yc.phases ↔ yc.chargIb.toNat < 256 := by
  rw [takeYc_phases, Yc.phases, ← shift_seven_eq_iff]
  simp only [List.cons.injEq, true_and, and_true]

/-- A current of 3.00 A in phase B arrives as 1.72 A. -/
theorem telemetry_of_three_ampere :
    (takeYc (informYc 1 ⟨2200, 2210, 2190, 301, 300, 302, 0, 0, 0, 0, 0⟩ 0 0) initPile).yc.phases =
      [2200, 2210, 2190, 301, 172, 302] := by
  decide

/-! ## Time -/

/-- A timing frame of the sender is taken by the handler of the receiver. -/
def takeTiming (chargIdent : Byte) (s : Pile) (now : SystemTime) : Option Pile := some (recTimingFrame (informTiming chargIdent now) s)

/-- The fields, read as binary numbers, are in the bounds the handler checks, and the week is zero. -/
structure SystemTime.Fits (now : SystemTime) : Prop where
  second : now.second ≤ 60
  minute : now.minute < 60
  hour : now.hour < 24
  day : now.day ≤ 31 ∧ 1 ≤ now.day
  month : now.month ≤ 12 ∧ 1 ≤ now.month
  year : now.year < 100
  week : now.week = 0

/-- A mask of low bits keeps a byte exactly when it fits in them. -/
theorem and_low_eq_self_iff (b : Byte) {k : Nat} (hk : k ≤ 8) : b &&& BitVec.ofNat 8 (2 ^ k - 1) = b ↔ b.toNat < 2 ^ k := by
  have hpow : 2 ^ k ≤ 2 ^ 8 := Nat.pow_le_pow_right (by omega) hk
  rw [← BitVec.toNat_inj, BitVec.toNat_and, BitVec.toNat_ofNat, Nat.mod_eq_of_lt (by omega), Nat.and_two_pow_sub_one_eq_mod,
    Nat.mod_eq_iff_lt (by positivity)]

theorem week_and_day_disjoint (week day : Byte) : (week <<< 5) &&& (day &&& 0x1F#8) = 0#8 := by
  ext i hi
  interval_cases i <;> simp

theorem packed_week (week day : Byte) : ((week <<< 5) + (day &&& 0x1F#8)) &&& 0xE0#8 = week <<< 5 := by
  rw [BitVec.add_eq_or_of_and_eq_zero _ _ (week_and_day_disjoint week day)]
  ext i hi
  interval_cases i <;> simp

theorem packed_day (week day : Byte) : ((week <<< 5) + (day &&& 0x1F#8)) &&& 0x1F#8 = day &&& 0x1F#8 := by
  rw [BitVec.add_eq_or_of_and_eq_zero _ _ (week_and_day_disjoint week day)]
  ext i hi
  interval_cases i <;> simp

/-- The week comes back as it is only when it is zero. -/
theorem week_shifted_eq_iff (week : Byte) : week <<< 5 = week ↔ week = 0 := by
  rw [← BitVec.toNat_inj, ← BitVec.toNat_inj, BitVec.toNat_shiftLeft, Nat.shiftLeft_eq]
  have hweek := week.isLt
  change _ ↔ week.toNat = 0
  omega

/-- The seconds that arrive: the milliseconds are cut to 16 bits. -/
def secondSent (now : SystemTime) : Nat := (now.second.setWidth 16 * 1000 : BitVec 16).toNat / 1000

theorem secondSent_eq (h : now.second ≤ 60) : secondSent now = now.second.toNat := by
  have hsecond : now.second.toNat ≤ 60 := BitVec.le_def.mp h
  have hthousand : (1000 : BitVec 16).toNat = 1000 := rfl
  rw [secondSent, BitVec.toNat_mul, BitVec.toNat_setWidth, hthousand]
  omega

theorem timingOf_informTiming (chargIdent : Byte) (now clock : SystemTime) :
    timingOf (informTiming chargIdent now) clock =
      if secondSent now ≤ 60 ∧ now.minute &&& 0x3F#8 < 60 ∧ now.hour &&& 0x1F#8 < 24 ∧ now.day &&& 0x1F#8 ≤ 31 ∧
          1 ≤ now.day &&& 0x1F#8 ∧ now.month &&& 0x0F#8 ≤ 12 ∧ 1 ≤ now.month &&& 0x0F#8 ∧ now.year &&& 0x7F#8 < 100 ∧
          now.minute &&& 0x3F#8 ≠ clock.minute then
        some ⟨BitVec.ofNat 8 (secondSent now), now.minute &&& 0x3F#8, now.hour &&& 0x1F#8, now.day &&& 0x1F#8, now.week <<< 5,
          now.month &&& 0x0F#8, now.year &&& 0x7F#8⟩
      else none := by
  have hmask : ∀ b mask : Byte, (b &&& mask) &&& mask = b &&& mask := by
    intro b mask
    rw [BitVec.and_assoc, BitVec.and_self]
  have hsecond : ((informTiming chargIdent now).byte 2 ++ (informTiming chargIdent now).byte 1).toNat / 1000 = secondSent now :=
    congrArg (fun v : BitVec 16 => v.toNat / 1000) (high_append_low _)
  have hminute : (informTiming chargIdent now).byte 3 &&& 0x3F = now.minute &&& 0x3F#8 := hmask now.minute 0x3F#8
  have hhour : (informTiming chargIdent now).byte 4 &&& 0x1F = now.hour &&& 0x1F#8 := hmask now.hour 0x1F#8
  have hday : (informTiming chargIdent now).byte 5 &&& 0x1F = now.day &&& 0x1F#8 := packed_day now.week now.day
  have hweek : (informTiming chargIdent now).byte 5 &&& (0xE0 : Byte) = now.week <<< 5 := packed_week now.week now.day
  have hmonth : (informTiming chargIdent now).byte 6 &&& 0x0F = now.month &&& 0x0F#8 := hmask now.month 0x0F#8
  have hyear : (informTiming chargIdent now).byte 7 &&& 0x7F = now.year &&& 0x7F#8 := hmask now.year 0x7F#8
  unfold timingOf
  simp only [hsecond, hminute, hhour, hday, hweek, hmonth, hyear]

/-- To a receiver in another minute, a frame brings the time exactly when the time fits. -/
theorem timingOf_informTiming_eq_iff (chargIdent : Byte) {clock : SystemTime} (hminute : now.minute ≠ clock.minute) :
    timingOf (informTiming chargIdent now) clock = some now ↔ now.Fits := by
  rw [timingOf_informTiming]
  constructor
  · intro h
    split_ifs at h with hlegal
    obtain ⟨hs, hmin, hh, hd, hd', hm, hm', hy, -⟩ := hlegal
    have htime := Option.some.inj h
    have hsecond := congrArg SystemTime.second htime
    have hminute' := congrArg SystemTime.minute htime
    have hhour := congrArg SystemTime.hour htime
    have hday := congrArg SystemTime.day htime
    have hweek := congrArg SystemTime.week htime
    have hmonth := congrArg SystemTime.month htime
    have hyear := congrArg SystemTime.year htime
    dsimp only at hsecond hminute' hhour hday hweek hmonth hyear
    rw [hminute'] at hmin
    rw [hhour] at hh
    rw [hday] at hd hd'
    rw [hmonth] at hm hm'
    rw [hyear] at hy
    refine ⟨?_, hmin, hh, ⟨hd, hd'⟩, ⟨hm, hm'⟩, hy, (week_shifted_eq_iff now.week).mp hweek⟩
    rw [← hsecond, BitVec.le_def, BitVec.toNat_ofNat]
    exact (Nat.mod_le _ _).trans hs
  · intro h
    have hsecond := secondSent_eq h.second
    have hkeep : ∀ {b : Byte} {k : Nat} (_ : k ≤ 8), b.toNat < 2 ^ k → b &&& BitVec.ofNat 8 (2 ^ k - 1) = b :=
      fun hk hb => (and_low_eq_self_iff _ hk).mpr hb
    have hmin : now.minute.toNat < 60 := BitVec.lt_def.mp h.minute
    have hh : now.hour.toNat < 24 := BitVec.lt_def.mp h.hour
    have hd : now.day.toNat ≤ 31 := BitVec.le_def.mp h.day.1
    have hm : now.month.toNat ≤ 12 := BitVec.le_def.mp h.month.1
    have hy : now.year.toNat < 100 := BitVec.lt_def.mp h.year
    have hminute' : now.minute &&& 0x3F#8 = now.minute := hkeep (show 6 ≤ 8 by omega) (by omega)
    have hhour : now.hour &&& 0x1F#8 = now.hour := hkeep (show 5 ≤ 8 by omega) (by omega)
    have hday : now.day &&& 0x1F#8 = now.day := hkeep (show 5 ≤ 8 by omega) (by omega)
    have hmonth : now.month &&& 0x0F#8 = now.month := hkeep (show 4 ≤ 8 by omega) (by omega)
    have hyear : now.year &&& 0x7F#8 = now.year := hkeep (show 7 ≤ 8 by omega) (by omega)
    have hweek : now.week <<< 5 = now.week := (week_shifted_eq_iff now.week).mpr h.week
    have hsec : secondSent now ≤ 60 := hsecond.trans_le (BitVec.le_def.mp h.second)
    rw [hminute', hhour, hday, hmonth, hyear, hweek,
      if_pos ⟨hsec, h.minute, h.hour, h.day.1, h.day.2, h.month.1, h.month.2, h.year, hminute⟩, hsecond, BitVec.ofNat_toNat,
      BitVec.setWidth_eq]

/-- A frame that is not ignored sets the time it brings, and the next one is ignored. -/
theorem recTimingFrame_of_fresh (msg : CanMsg) (hfresh : s.reSendFlag .timingFrameAck = false) :
    (recTimingFrame msg s).clock = (timingOf msg s.clock).getD s.clock ∧ (recTimingFrame msg s).reSendFlag .timingFrameAck = true := by
  unfold recTimingFrame onceOnly
  rw [hfresh]
  simp [informCommunicateCan, CanFrame.sendable, Pile.setFlag, Pile.ident]

theorem recTimingFrame_of_repeated (hflag : s.reSendFlag .timingFrameAck = true) :
    recTimingFrame msg s = s := by
  rw [recTimingFrame, onceOnly, if_pos hflag]

/-- For every sequence of frames with the times of the sender, each in another minute than the one before and the first in another
minute than the receiver: each of them sets the receiver's time to that of the sender exactly when there is at most one, nothing has
set the receiver's flag before it, and its time fits. -/
theorem timing_applied_iff (chargIdent : Byte) (s : Pile) (times : List SystemTime)
    (hminutes : (s.clock.minute :: times.map SystemTime.minute).IsChain (· ≠ ·)) :
    Keeps (takeTiming chargIdent) (fun now s' => s'.clock = now) s times ↔
      times.length ≤ 1 ∧ ∀ now ∈ times, s.reSendFlag .timingFrameAck = false ∧ now.Fits := by
  constructor
  · intro h
    cases times with
    | nil => exact ⟨Nat.zero_le 1, fun now hnow => absurd hnow List.not_mem_nil⟩
    | cons now rest =>
      obtain ⟨s₁, hs₁, hclock, hrest⟩ := h
      cases hs₁
      obtain ⟨hne, hchain⟩ := List.isChain_cons_cons.mp hminutes
      have hfresh : s.reSendFlag .timingFrameAck = false := by
        by_contra hflag
        rw [recTimingFrame_of_repeated (by simpa using hflag)] at hclock
        exact hne (congrArg SystemTime.minute hclock)
      obtain ⟨hset, hflag⟩ := recTimingFrame_of_fresh (informTiming chargIdent now) hfresh
      have hfits : now.Fits := by
        rw [← timingOf_informTiming_eq_iff chargIdent hne.symm]
        rw [hset] at hclock
        cases htime : timingOf (informTiming chargIdent now) s.clock with
        | none =>
          rw [htime] at hclock
          exact absurd (congrArg SystemTime.minute hclock) hne
        | some time =>
          rw [htime] at hclock
          exact congrArg some hclock
      cases rest with
      | nil =>
        refine ⟨Nat.le_refl 1, ?_⟩
        intro t ht
        rw [List.mem_singleton.mp ht]
        exact ⟨hfresh, hfits⟩
      | cons next rest =>
        -- the second frame is ignored, so the time stays in the minute of the first
        obtain ⟨s₂, hs₂, hclock₂, -⟩ := hrest
        cases hs₂
        rw [recTimingFrame_of_repeated hflag, hclock] at hclock₂
        exact absurd (congrArg SystemTime.minute hclock₂) (List.isChain_cons_cons.mp hchain).1
  · rintro ⟨hlength, htimes⟩
    rcases times with _ | ⟨now, _ | ⟨next, rest⟩⟩
    · trivial
    · obtain ⟨hfresh, hfits⟩ := htimes now List.mem_cons_self
      have hne := (List.isChain_cons_cons.mp hminutes).1
      have hclock := (recTimingFrame_of_fresh (informTiming chargIdent now) hfresh).1
      rw [(timingOf_informTiming_eq_iff chargIdent hne.symm).mpr hfits, Option.getD_some] at hclock
      exact ⟨_, rfl, hclock, trivial⟩
    · rw [List.length_cons, List.length_cons] at hlength
      omega

/-- Sunday, the fifth of July 2020, at a time of the morning. -/
def julyMorning (hour minute : Byte) : SystemTime := ⟨0x30, minute, hour, 0x05, 0x00, 0x07, 0x20⟩

theorem timing_of_one_frame :
    (Keeps (takeTiming 1) (fun now s' => s'.clock = now) initPile [julyMorning 0x09 0x15] ↔
      [julyMorning 0x09 0x15].length ≤ 1 ∧
        ∀ now ∈ [julyMorning 0x09 0x15], initPile.reSendFlag .timingFrameAck = false ∧ now.Fits) :=
  timing_applied_iff 1 initPile [julyMorning 0x09 0x15] (by decide)

/-- A Wednesday in October: the month is cut to zero, so that nothing is set. A Wednesday in July: the week arrives in the wrong bits.
Two frames of a time that fits: the second is ignored. -/
theorem timing_not_applied :
    timingOf (informTiming 1 ⟨0x30, 0x15, 0x10, 0x07, 0x03, 0x10, 0x20⟩) initPile.clock = none ∧
    timingOf (informTiming 1 ⟨0x30, 0x15, 0x10, 0x08, 0x03, 0x07, 0x20⟩) initPile.clock =
      some ⟨0x30, 0x15, 0x10, 0x08, 0x60, 0x07, 0x20⟩ ∧
    ((takeTiming 1 initPile (julyMorning 0x09 0x15)).bind fun s => (takeTiming 1 s (julyMorning 0x09 0x16)).map Pile.clock) =
      some (julyMorning 0x09 0x15) := by
  decide

end EnergyRouter
