import EnergyRouter.Theorems.ModbusCrc
import EnergyRouter.Theorems.Readings

/-!
# The replies of the meter

`cmMeterModbus_RecProtocal` looks for the first three bytes of a reply and copies 37 bytes from there. The record changes only with
a good check, and to the quantities copied. But the first header is taken for the reply even if it is none, and the copy does not
mind the end of the buffer.
-/

namespace EnergyRouter

open Buffer

variable {rxbuf : Vector Byte 100} {rxlenth i p : Nat} {rxData received : List Byte}

/-! ## The search -/

/-- The first three bytes of a reply. -/
def HeaderAt (rxbuf : Vector Byte 100) (p : Nat) : Prop :=
  rxbuf.getD p 0 = 0x01 ∧ rxbuf.getD (p + 1) 0 = 0x03 ∧ rxbuf.getD (p + 2) 0 = 0x20
deriving Decidable

/-- The first header of a buffer, looked for at `rxlenth` places and not behind place 97. -/
structure FirstHeader (rxbuf : Vector Byte 100) (rxlenth p : Nat) : Prop where
  searched : p < rxlenth
  inside : p ≤ 97
  header : HeaderAt rxbuf p
  first : ∀ q < p, ¬ HeaderAt rxbuf q

theorem modbusStart_succ (rxbuf : Vector Byte 100) (n k : Nat) :
    modbusStart rxbuf (n + 1) k =
      if HeaderAt rxbuf k then some k else if k + 1 > 97 then none else modbusStart rxbuf n (k + 1) := rfl

theorem modbusStart_eq_some (rxbuf : Vector Byte 100) (n : Nat) {k : Nat} (hk : k ≤ 97) (p : Nat) :
    modbusStart rxbuf n k = some p ↔ k ≤ p ∧ p < k + n ∧ p ≤ 97 ∧ HeaderAt rxbuf p ∧ ∀ q < p, k ≤ q → ¬ HeaderAt rxbuf q := by
  induction n generalizing k with
  | zero =>
    rw [modbusStart]
    constructor
    · intro h
      cases h
    · rintro ⟨hle, hlt, -⟩
      omega
  | succ n ih =>
    rw [modbusStart_succ]
    by_cases hheader : HeaderAt rxbuf k
    · rw [if_pos hheader, Option.some.injEq]
      constructor
      · rintro rfl
        refine ⟨Nat.le_refl _, by omega, hk, hheader, ?_⟩
        intro q hq hle
        omega
      · rintro ⟨hle, -, -, -, hfirst⟩
        by_contra hne
        exact hfirst k (by omega) (Nat.le_refl _) hheader
    · rw [if_neg hheader]
      -- a header found from `k` on is not at `k`
      have hnext : (k ≤ p ∧ p < k + (n + 1) ∧ p ≤ 97 ∧ HeaderAt rxbuf p ∧ ∀ q < p, k ≤ q → ¬ HeaderAt rxbuf q) ↔
          k + 1 ≤ p ∧ p < k + 1 + n ∧ p ≤ 97 ∧ HeaderAt rxbuf p ∧ ∀ q < p, k + 1 ≤ q → ¬ HeaderAt rxbuf q := by
        constructor
        · rintro ⟨hle, hlt, hin, hp, hfirst⟩
          have hne : k ≠ p := by
            rintro rfl
            exact hheader hp
          exact ⟨by omega, by omega, hin, hp, fun q hq hle => hfirst q hq (by omega)⟩
        · rintro ⟨hle, hlt, hin, hp, hfirst⟩
          refine ⟨by omega, by omega, hin, hp, ?_⟩
          intro q hq hle
          by_cases hkq : q = k
          · exact hkq ▸ hheader
          · exact hfirst q hq (by omega)
      rw [hnext]
      by_cases hend : k + 1 > 97
      · rw [if_pos hend]
        constructor
        · intro h
          cases h
        · rintro ⟨hle, -, hin, -⟩
          omega
      · rw [if_neg hend]
        exact ih (by omega)

theorem modbusStart_iff (rxbuf : Vector Byte 100) (rxlenth p : Nat) :
    modbusStart rxbuf rxlenth 0 = some p ↔ FirstHeader rxbuf rxlenth p := by
  rw [modbusStart_eq_some rxbuf rxlenth (Nat.zero_le 97), Nat.zero_add]
  constructor
  · rintro ⟨-, hlt, hin, hheader, hfirst⟩
    exact ⟨hlt, hin, hheader, fun q hq => hfirst q hq (Nat.zero_le q)⟩
  · rintro ⟨hlt, hin, hheader, hfirst⟩
    exact ⟨Nat.zero_le p, hlt, hin, hheader, fun q hq _ => hfirst q hq⟩

/-! ## What is copied -/

/-- `cmMeterModbus_RecProtocal` with the 34 bytes behind the buffer its copy can reach: the bytes copied to `Rx_data`, and the
record. -/
def recProtocalOver (rxbuf : Vector Byte 100) (behind : Vector Byte 34) (rxlenth : Nat) (stMeterAnalog : MeterAnalog) :
    Option (List Byte) × MeterAnalog :=
  match modbusStart rxbuf rxlenth 0 with
  | none => (none, stMeterAnalog)
  | some rxPtr =>
    let rxData := ((rxbuf.toList ++ behind.toList).drop rxPtr).take 37
    (some rxData, (cmMeterStateUpdate rxData stMeterAnalog).2)

/-- Where the copy stays inside the buffer, what stands behind it does not matter. -/
theorem cmMeterModbusRecProtocal_over {a a' : MeterAnalog} (h : cmMeterModbusRecProtocal rxbuf rxlenth a = some a')
    (behind : Vector Byte 34) :
    recProtocalOver rxbuf behind rxlenth a = (replyIn (rxbuf, rxlenth), a') := by
  unfold cmMeterModbusRecProtocal at h
  unfold recProtocalOver replyIn
  cases hstart : modbusStart rxbuf rxlenth 0 with
  | none =>
    rw [hstart] at h
    cases h
    rfl
  | some rxPtr =>
    rw [hstart] at h
    dsimp only at h
    split_ifs at h with hin
    cases h
    have hdrop : ((rxbuf.toList ++ behind.toList).drop rxPtr).take 37 = (rxbuf.toList.drop rxPtr).take 37 := by
      rw [List.drop_append_of_le_length (by simp; omega), List.take_append_of_le_length (by simp; omega)]
    simp only [hdrop, Option.map_some]

/-- The bytes have the form of a reply, and their last two are the low and the high byte of the check of the others. -/
structure CheckedReply (rxData : List Byte) : Prop where
  length : rxData.length = 37
  header : rxData.take 3 = [0x01, 0x03, 0x20]
  check : ∃ crc, crc16 rxData 35 = some crc ∧ rxData[35]? = some (crc.setWidth 8) ∧ rxData[36]? = some ((crc >>> 8).setWidth 8)

/-- Of 37 bytes that start with the header, those pass the check that are a reply. -/
theorem replyGood_iff (hlength : rxData.length = 37) (hheader : rxData.take 3 = [0x01, 0x03, 0x20]) :
    ReplyGood rxData ↔ CheckedReply rxData := by
  rw [ReplyGood, hlength]
  exact ⟨fun hcheck => ⟨hlength, hheader, hcheck⟩, fun hchecked => hchecked.check⟩

/-- The record holds the quantities of a reply, each scaled. -/
structure Decoded (rxData : List Byte) (a : MeterAnalog) : Prop where
  ulVol : a.ulVol.toNat = bigEndian ((rxData.drop 3).take 4) / 1000
  ulCur : a.ulCur.toNat = bigEndian ((rxData.drop 7).take 4) / 100
  ulAcPwr : a.ulAcPwr.toNat = bigEndian ((rxData.drop 11).take 4) / 10
  ulMeterTotal : a.ulMeterTotal.toNat = bigEndian ((rxData.drop 15).take 4) / 10
  ulPwrFactor : a.ulPwrFactor.toNat = bigEndian ((rxData.drop 19).take 4) / 10
  ulFrequency : a.ulFrequency.toNat = bigEndian ((rxData.drop 31).take 4) / 1

/-- A part of a list, place by place. -/
theorem take_drop_eq_map_getD (l : List Byte) {n : Nat} (h : i + n ≤ l.length) :
    (l.drop i).take n = (List.range n).map fun k => l.getD (i + k) 0 := by
  apply List.ext_getElem
  · simp
    omega
  · intro k hk hk'
    have hk : k < n := by simpa using hk'
    simp [List.getD_eq_getElem?_getD, List.getElem?_eq_getElem (show i + k < l.length by omega)]

/-- What is copied has 37 bytes and starts with the header. -/
theorem copied_form (h : FirstHeader rxbuf rxlenth p) (behind : Vector Byte 34) :
    (((rxbuf.toList ++ behind.toList).drop p).take 37).length = 37 ∧
      (((rxbuf.toList ++ behind.toList).drop p).take 37).take 3 = [0x01, 0x03, 0x20] := by
  have hin := h.inside
  refine ⟨by simp; omega, ?_⟩
  have hcell : ∀ i < 100, (rxbuf.toList ++ behind.toList).getD i 0 = rxbuf.getD i 0 := by
    intro i hi
    simp [Vector.getD, List.getD_eq_getElem?_getD, List.getElem?_append_left, hi]
  obtain ⟨h₁, h₂, h₃⟩ := h.header
  rw [List.take_take, Nat.min_eq_left (by omega), take_drop_eq_map_getD _ (by simp; omega)]
  simp only [List.range, List.range.loop, List.map_cons, List.map_nil, Nat.add_zero]
  rw [hcell p (by omega), hcell (p + 1) (by omega), hcell (p + 2) (by omega), h₁, h₂, h₃]

theorem toNat_append_byte {w : Nat} (x : BitVec w) (b : Byte) : (x ++ b).toNat = x.toNat * 256 + b.toNat := by
  rw [BitVec.toNat_append, ← Nat.shiftLeft_add_eq_or_of_lt b.isLt, Nat.shiftLeft_eq]

theorem replyWord_toNat (rxData : List Byte) (hi : i + 4 ≤ rxData.length) :
    (replyWord rxData i).toNat = bigEndian ((rxData.drop i).take 4) := by
  rw [take_drop_eq_map_getD _ hi, replyWord, toNat_append_byte, toNat_append_byte, toNat_append_byte]
  simp [List.range, List.range.loop, bigEndian]

theorem decoded_decodeReply (hlength : rxData.length = 37) : Decoded rxData (decodeReply rxData) := by
  have hscaled : ∀ i k : Nat, i + 4 ≤ 37 → k < 2 ^ 32 →
      (replyWord rxData i / BitVec.ofNat 32 k).toNat = bigEndian ((rxData.drop i).take 4) / k := by
    intro i k hi hk
    rw [BitVec.toNat_udiv, replyWord_toNat rxData (by omega), BitVec.toNat_ofNat, Nat.mod_eq_of_lt hk]
  refine ⟨hscaled 3 1000 ?_ ?_, hscaled 7 100 ?_ ?_, hscaled 11 10 ?_ ?_, hscaled 15 10 ?_ ?_, hscaled 19 10 ?_ ?_, ?_⟩
  case refine_11 => rw [← replyWord_toNat rxData (by omega), Nat.div_one]; rfl
  all_goals decide

/-- The record changes only with a checked reply among the bytes copied, and with one it takes its quantities; whatever was received,
and whatever stands behind the buffer. -/
theorem readings_crc_gated (rxbuf : Vector Byte 100) (behind : Vector Byte 34) (rxlenth : Nat) (a : MeterAnalog) :
    ((recProtocalOver rxbuf behind rxlenth a).2 ≠ a →
      ∃ rxData, (recProtocalOver rxbuf behind rxlenth a).1 = some rxData ∧ CheckedReply rxData) ∧
    ∀ rxData, (recProtocalOver rxbuf behind rxlenth a).1 = some rxData → CheckedReply rxData →
      Decoded rxData (recProtocalOver rxbuf behind rxlenth a).2 := by
  unfold recProtocalOver
  cases hstart : modbusStart rxbuf rxlenth 0 with
  | none =>
    refine ⟨fun hchanged => absurd rfl hchanged, ?_⟩
    intro rxData hcopied
    cases hcopied
  | some p =>
    obtain ⟨hlength, hheader⟩ := copied_form ((modbusStart_iff rxbuf rxlenth p).mp hstart) behind
    dsimp only
    generalize ((rxbuf.toList ++ behind.toList).drop p).take 37 = copied at hlength hheader
    have hgood := replyGood_iff hlength hheader
    constructor
    · intro hchanged
      refine ⟨copied, rfl, hgood.mp ?_⟩
      by_contra hbad
      exact hchanged (by rw [cmMeterStateUpdate, if_neg hbad])
    · intro rxData hcopied hchecked
      cases hcopied
      rw [cmMeterStateUpdate, if_pos (hgood.mpr hchecked)]
      exact decoded_decodeReply hlength

/-! ## What a turn receives -/

/-- `meter_rx_ind`: the number of bytes received is kept in a byte. -/
def meterRxInd (size : Nat) : Nat := size % 256

/-- The buffer after the bytes received are read into it, as many as the byte says. -/
def readInto (rxbuf : Vector Byte 100) (received : List Byte) : Vector Byte 100 :=
  copyAt rxbuf 0 (received.take (meterRxInd received.length))

/-- A turn of `meter_thread_entry` after an event: the bytes received are read and looked through, unless it was one. What is left
are the buffer, `Rx_data` and the record. -/
def meterReceive (rxbuf : Vector Byte 100) (received : List Byte) (stMeterAnalog : MeterAnalog) :
    Option (Vector Byte 100 × Option (List Byte) × MeterAnalog) :=
  let rxlenth := meterRxInd received.length
  if rxlenth ≤ 100 then
    let rxbuf := readInto rxbuf received
    if rxlenth ≠ 1 then
      (cmMeterModbusRecProtocal rxbuf rxlenth stMeterAnalog).map fun stMeterAnalog =>
        (rxbuf, replyIn (rxbuf, rxlenth), stMeterAnalog)
    else some (rxbuf, none, stMeterAnalog)
  else none

/-- A complete reply with a good check, anywhere among the bytes received. -/
structure ReplyAmong (received reply : List Byte) : Prop where
  among : reply <:+: received
  checked : CheckedReply reply

/-- The turn stays inside the buffer, and where the bytes received hold a reply, the record is updated from one they hold. -/
def TurnReceives (rxbuf : Vector Byte 100) (received : List Byte) (a : MeterAnalog) : Prop :=
  ∃ rxbuf' copied a', meterReceive rxbuf received a = some (rxbuf', copied, a') ∧
    ((∃ reply, ReplyAmong received reply) → ∃ reply, ReplyAmong received reply ∧ copied = some reply ∧ a' = decodeReply reply)

/-- The header a turn comes to: not one byte was read, and it is the first one in the buffer. -/
def TurnHeader (rxbuf : Vector Byte 100) (received : List Byte) (p : Nat) : Prop :=
  meterRxInd received.length ≠ 1 ∧ FirstHeader (readInto rxbuf received) (meterRxInd received.length) p

/-- The buffer has room for the bytes received, the header is far enough from its end, and where the bytes hold a reply, one of them
starts there. -/
structure TurnReceivable (rxbuf : Vector Byte 100) (received : List Byte) : Prop where
  fits : meterRxInd received.length ≤ 100
  early : ∀ p, TurnHeader rxbuf received p → p ≤ 63
  reply : (∃ reply, ReplyAmong received reply) →
    ∃ p, TurnHeader rxbuf received p ∧ ReplyAmong received (((readInto rxbuf received).toList.drop p).take 37)

theorem TurnHeader.unique {q : Nat} (hp : TurnHeader rxbuf received p) (hq : TurnHeader rxbuf received q) : p = q := by
  have hp := (modbusStart_iff ..).mpr hp.2
  have hq := (modbusStart_iff ..).mpr hq.2
  exact Option.some.inj (hp.symm.trans hq)

/-- A turn that comes to a header copies 37 bytes from there, if they are in the buffer. -/
theorem meterReceive_header (hfits : meterRxInd received.length ≤ 100) (hp : TurnHeader rxbuf received p) (a : MeterAnalog) :
    meterReceive rxbuf received a =
      if p ≤ 63 then
        some (readInto rxbuf received, some (((readInto rxbuf received).toList.drop p).take 37),
          (cmMeterStateUpdate (((readInto rxbuf received).toList.drop p).take 37) a).2)
      else none := by
  have hstart := (modbusStart_iff ..).mpr hp.2
  simp only [meterReceive, if_pos hfits, if_pos hp.1, cmMeterModbusRecProtocal, replyIn, hstart, Option.map_some]
  split_ifs with hin hle hle
  · rfl
  · omega
  · omega
  · rfl

theorem meterReceive_no_header (hfits : meterRxInd received.length ≤ 100) (hnone : ∀ p, ¬ TurnHeader rxbuf received p)
    (a : MeterAnalog) :
    meterReceive rxbuf received a = some (readInto rxbuf received, none, a) := by
  rw [meterReceive, if_pos hfits]
  split_ifs with hone
  · have hstart : modbusStart (readInto rxbuf received) (meterRxInd received.length) 0 = none := by
      rw [Option.eq_none_iff_forall_ne_some]
      intro p hp
      exact hnone p ⟨hone, (modbusStart_iff ..).mp hp⟩
    simp only [cmMeterModbusRecProtocal, replyIn, hstart, Option.map_some, Option.map_none]
  · rfl

/-- Over every number of bytes received and every content of the buffer: a turn stays inside the buffer and finds a reply where there is
one, exactly when the bytes fit, the first header is not too late, and it is the start of a reply where there is one. -/
theorem reply_received_iff (rxbuf : Vector Byte 100) (received : List Byte) (a : MeterAnalog) :
    TurnReceives rxbuf received a ↔ TurnReceivable rxbuf received := by
  unfold TurnReceives
  by_cases hfits : meterRxInd received.length ≤ 100
  · by_cases hheader : ∃ p, TurnHeader rxbuf received p
    · obtain ⟨p, hp⟩ := hheader
      rw [meterReceive_header hfits hp]
      constructor
      · rintro ⟨rxbuf', copied, a', hturn, hreply⟩
        split_ifs at hturn with hle
        cases hturn
        refine ⟨hfits, fun q hq => hq.unique hp ▸ hle, ?_⟩
        intro hsome
        obtain ⟨reply, hamong, hcopied, -⟩ := hreply hsome
        exact ⟨p, hp, Option.some.inj hcopied ▸ hamong⟩
      · rintro ⟨-, hearly, hreply⟩
        rw [if_pos (hearly p hp)]
        refine ⟨_, _, _, rfl, ?_⟩
        intro hsome
        obtain ⟨q, hq, hamong⟩ := hreply hsome
        cases hq.unique hp
        have hgood := (replyGood_iff hamong.checked.length hamong.checked.header).mpr hamong.checked
        exact ⟨_, hamong, rfl, by rw [cmMeterStateUpdate, if_pos hgood]⟩
    · have hnone := not_exists.mp hheader
      rw [meterReceive_no_header hfits hnone]
      constructor
      · rintro ⟨rxbuf', copied, a', hturn, hreply⟩
        cases hturn
        refine ⟨hfits, fun q hq => absurd hq (hnone q), ?_⟩
        intro hsome
        obtain ⟨reply, -, hcopied, -⟩ := hreply hsome
        cases hcopied
      · rintro ⟨-, -, hreply⟩
        refine ⟨_, _, _, rfl, ?_⟩
        intro hsome
        obtain ⟨q, hq, -⟩ := hreply hsome
        exact absurd hq (hnone q)
  · rw [meterReceive, if_neg hfits]
    constructor
    · rintro ⟨rxbuf', copied, a', hturn, -⟩
      cases hturn
    · rintro ⟨hallowed, -, -⟩
      exact absurd hallowed hfits

/-- A reply behind three bytes that look like the start of one. -/
def misledReply : List Byte := [0x01, 0x03, 0x20] ++ meterReply

/-- The reply behind a false header is not found, although all of it was received. A hundred and one bytes do not fit the buffer, and a
header at place 64 leads out of it. -/
theorem reply_missed :
    ReplyAmong misledReply meterReply ∧ ¬ TurnReceives (Vector.replicate 100 0) misledReply zeroValues.analog ∧
      meterReceive (Vector.replicate 100 0) (List.replicate 101 0) zeroValues.analog = none ∧
      meterReceive (Vector.replicate 100 0) (List.replicate 64 0 ++ [0x01, 0x03, 0x20]) zeroValues.analog = none := by
  have hamong : ReplyAmong misledReply meterReply :=
    ⟨⟨[0x01, 0x03, 0x20], [], by simp [misledReply]⟩, (replyGood_iff (by decide) (by decide)).mp replyGood_meterReply⟩
  refine ⟨hamong, ?_, by rw [meterReceive, if_neg (by decide)], ?_⟩
  · rintro ⟨rxbuf', copied, a', hturn, hreply⟩
    have hheader : TurnHeader (Vector.replicate 100 0) misledReply 0 := by
      refine ⟨by decide, by decide, by decide, by decide +kernel, ?_⟩
      intro q hq
      omega
    have hcopied : ((readInto (Vector.replicate 100 0) misledReply).toList.drop 0).take 37 = misledReply.take 37 := by decide +kernel
    rw [meterReceive_header (by decide) hheader, if_pos (by decide), hcopied] at hturn
    obtain ⟨reply, ⟨-, hchecked⟩, hreply, -⟩ := hreply ⟨meterReply, hamong⟩
    have hfirst : some (misledReply.take 37) = some reply := (congrArg (fun t => t.2.1) (Option.some.inj hturn)).trans hreply
    have hgood : ReplyGood reply := (replyGood_iff hchecked.length hchecked.header).mpr hchecked
    rw [← Option.some.inj hfirst] at hgood
    exact absurd hgood (by decide +kernel)
  · have hheader : TurnHeader (Vector.replicate 100 0) (List.replicate 64 0 ++ [0x01, 0x03, 0x20]) 64 :=
      ⟨by decide, by decide, by decide, by decide +kernel, by decide +kernel⟩
    rw [meterReceive_header (by decide) hheader, if_neg (by decide)]

/-! ## Damaged replies -/

/-- Of 37 bytes that pass the check the whole ends in the empty register. -/
theorem ReplyGood.crc_eq_zero (hlength : rxData.length = 37) (h : ReplyGood rxData) : TableCrc.crc uscrcEntry 0xffff rxData = 0 := by
  rw [ReplyGood, hlength] at h
  obtain ⟨c, hcrc, hlow, hhigh⟩ := h
  rw [crc16_eq (by omega)] at hcrc
  have hsplit : rxData = rxData.take 35 ++ [c.setWidth 8, (c >>> 8).setWidth 8] := by
    conv_lhs => rw [← List.take_append_drop 35 rxData]
    rw [List.drop_eq_getElem_cons (by omega), List.drop_eq_getElem_cons (by omega), List.drop_of_length_le (by omega),
      (List.getElem?_eq_some_iff.mp hlow).2, (List.getElem?_eq_some_iff.mp hhigh).2]
  rw [hsplit, ← Option.some.inj hcrc]
  exact TableCrc.crc_append_own_bytes (by decide) _ _

/-- A reply with errors that lie within sixteen bits in a row changes no reading: a turn that copies such bytes leaves the record as it
was. -/
theorem damaged_reply_ignored (rxbuf rxbuf' : Vector Byte 100) (received reply errors : List Byte) (a a' : MeterAnalog)
    (hreply : CheckedReply reply) (hlen : errors.length = reply.length) (hburst : BitCrc.Burst 16 errors)
    (hturn : meterReceive rxbuf received a = some (rxbuf', some (List.zipWith (· ^^^ ·) reply errors), a')) : a' = a := by
  have hlength : (List.zipWith (· ^^^ ·) reply errors).length = 37 := by
    rw [List.length_zipWith, hlen, Nat.min_self, hreply.length]
  have hbad : ¬ReplyGood (List.zipWith (· ^^^ ·) reply errors) := by
    intro hgood
    have hzero := ((replyGood_iff hreply.length hreply.header).mpr hreply).crc_eq_zero hreply.length
    exact BitCrc.crc_ne_of_burst uscrcEntry_eq (by decide) 0xffff hlen hburst ((hgood.crc_eq_zero hlength).trans hzero.symm)
  have hfits : meterRxInd received.length ≤ 100 := by
    by_contra hlong
    rw [meterReceive, if_neg hlong] at hturn
    cases hturn
  by_cases hheader : ∃ p, TurnHeader rxbuf received p
  · obtain ⟨p, hp⟩ := hheader
    rw [meterReceive_header hfits hp] at hturn
    split_ifs at hturn with hle
    obtain ⟨-, hcopied, rfl⟩ : _ ∧ _ ∧ _ := by simpa using hturn
    rw [hcopied, cmMeterStateUpdate, if_neg hbad]
  · rw [meterReceive_no_header hfits (not_exists.mp hheader)] at hturn
    cases hturn

/-- Two bits of a reply, in neighbouring bytes. -/
def replyErrors : List Byte := [0, 0, 0, 0x80, 0x01] ++ List.replicate 32 0

theorem damaged_reply_ignored_two_bits : ∃ rxbuf' a', meterReceive (Vector.replicate 100 0)
    (List.zipWith (· ^^^ ·) meterReply replyErrors) zeroValues.analog =
      some (rxbuf', some (List.zipWith (· ^^^ ·) meterReply replyErrors), a') ∧ a' = zeroValues.analog := by
  have hturn : meterReceive (Vector.replicate 100 0) (List.zipWith (· ^^^ ·) meterReply replyErrors) zeroValues.analog =
      some (readInto (Vector.replicate 100 0) (List.zipWith (· ^^^ ·) meterReply replyErrors),
        some (List.zipWith (· ^^^ ·) meterReply replyErrors), zeroValues.analog) := by
    decide +kernel
  exact ⟨_, _, hturn, damaged_reply_ignored _ _ _ meterReply replyErrors _ _
    ((replyGood_iff (by decide) (by decide)).mp replyGood_meterReply) rfl (.of_forall (by decide +kernel) 31 (by decide +kernel)) hturn⟩

end EnergyRouter
