import EnergyRouter.Lemmas.Records

/-!
# What the event records return

A time is written as six values and read back to six bytes from the second on, but the weekday stands in the middle of its seven
bytes: no reader ever stores the year of the first time. So none of the four stores returns a record.
-/

namespace EnergyRouter

open Memory

section RoundTrip

variable {n : Nat}

/-- The bytes of the six values of a time at an offset; the weekday is not written. -/
def InTime (off q : Nat) : Prop := (off ≤ q ∧ q < off + 4) ∨ (off + 5 ≤ q ∧ q < off + 7)

/-- The number, the times, the reason, the request, the user, the asset and the measured values of a charge record. -/
def InChargeRecord (q : Nat) : Prop :=
  q < 4 ∨ InTime 4 q ∨ InTime 11 q ∨ q = 18 ∨ (20 ≤ q ∧ q < 125) ∨ (128 ≤ q ∧ q < 132) ∨ InTime 132 q ∨ InTime 139 q ∨
    (148 ≤ q ∧ q < 156) ∨ InTime 156 q ∨ InTime 163 q ∨ (172 ≤ q ∧ q < 180)

/-- The number, the times, the reason and the faults of an order. -/
def InOrderCharge (q : Nat) : Prop := q < 4 ∨ InTime 4 q ∨ InTime 11 q ∨ q = 18 ∨ (20 ≤ q ∧ q < 56)

/-- The number, the times, the reason, the request, the asset and the data of a failed plan. -/
def InPlanFail (q : Nat) : Prop := q < 4 ∨ InTime 4 q ∨ InTime 11 q ∨ q = 18 ∨ (20 ≤ q ∧ q < 93)

/-- The number, the times, the change of the state and its reason. -/
def InOnlineState (q : Nat) : Prop := q < 4 ∨ InTime 4 q ∨ InTime 11 q ∨ q = 19 ∨ q = 20

/-- A record that is written and then read as the most recent one comes back with the bytes of an area as they were. -/
def EventStore.RoundTrip (st : EventStore n) (area : Nat → Prop) (room : Room) (path : List Char) (place : Nat) (clock : SystemTime)
    (dir : Dir) (m : Vector Byte n) : Prop :=
  ∀ dest, ∃ dir₁ m' dir₂, st.write room path place clock m dir = some (0, dir₁) ∧ st.read path 0 dest dir₁ = some (0, m', dir₂) ∧
    SameOn area m m'

/-- A byte that no field of the reader reaches is not returned. -/
theorem EventStore.not_roundTrip {st : EventStore n} {area : Nat → Prop} {q : Nat} (hq : area q) (hn : q < n)
    (hleaves : ∀ f ∈ st.fields, f.Leaves (byteAt · q)) (room : Room) (path : List Char) (place : Nat) (clock : SystemTime) (dir : Dir)
    (m : Vector Byte n) : ¬st.RoundTrip area room path place clock dir m := by
  intro hreturned
  obtain ⟨dir₁, m', dir₂, -, hread, hsame⟩ := hreturned (Vector.replicate n (byteAt m q + 1))
  have hdest : byteAt (Vector.replicate n (byteAt m q + 1)) q = byteAt m q + 1 := by
    simp [byteAt, Vector.getD, hn]
  have hkept := EventStore.read_leaves hleaves hread
  rw [hdest, hsame q hq] at hkept
  bv_omega

/-- The year of the first time is at offset 10. -/
theorem year_not_read :
    (∀ f ∈ chargeRecordStorage.fields, f.Leaves (byteAt · 10)) ∧ (∀ f ∈ orderChargeStorage.fields, f.Leaves (byteAt · 10)) ∧
      (∀ f ∈ planFailStorage.fields, f.Leaves (byteAt · 10)) ∧ ∀ f ∈ onlineStateStorage.fields, f.Leaves (byteAt · 10) := by
  simp [chargeRecordStorage, orderChargeStorage, planFailStorage, onlineStateStorage, wordField_leaves, bytesField_leaves]

/-- None of the stores returns any record. -/
theorem event_records_not_returned (room : Room) (path : List Char) (place : Nat) (clock : SystemTime) (dir : Dir) :
    (∀ m, ¬chargeRecordStorage.RoundTrip InChargeRecord room path place clock dir m) ∧
      (∀ m, ¬orderChargeStorage.RoundTrip InOrderCharge room path place clock dir m) ∧
      (∀ m, ¬planFailStorage.RoundTrip InPlanFail room path place clock dir m) ∧
      ∀ m, ¬onlineStateStorage.RoundTrip InOnlineState room path place clock dir m := by
  obtain ⟨hcharge, horder, hplan, honline⟩ := year_not_read
  have hyear : InTime 4 10 := .inr ⟨by decide, by decide⟩
  refine ⟨?_, ?_, ?_, ?_⟩
  · exact EventStore.not_roundTrip (.inr (.inl hyear)) (by decide) hcharge room path place clock dir
  · exact EventStore.not_roundTrip (.inr (.inl hyear)) (by decide) horder room path place clock dir
  · exact EventStore.not_roundTrip (.inr (.inl hyear)) (by decide) hplan room path place clock dir
  · exact EventStore.not_roundTrip (.inr (.inl hyear)) (by decide) honline room path place clock dir

/-- Record number 7, all of whose other bytes are 0x11. -/
def recordSeven : Vector Byte 180 := storeWord 0 7 (Vector.replicate 180 0x11)

theorem recordSeven_found (clock : SystemTime) :
    ∃ dir found, chargeRecordStorage.write ⟨64, 256⟩ chargeRecordPath 0 clock recordSeven [] = some (0, dir) ∧
      findPathFile chargeRecordPath 0 dir = some found ∧ found.pathfile = inPath chargeRecordPath (recordName recordSeven) ∧
      found.dir.openFile chargeRecordPath found.pathfile = some (chargeRecordStorage.text clock recordSeven) := by
  have hname : (recordName recordSeven).length = 21 := length_recordName (by decide +kernel)
  have hpath : chargeRecordPath.length ≤ 26 := by decide +kernel
  have hwrite : chargeRecordStorage.write ⟨64, 256⟩ chargeRecordPath 0 clock recordSeven [] = some (0, _) :=
    chargeRecordStorage_write (by decide) (by rw [hname]; decide) (by rw [hname]; decide) (by simp) 0 clock
  -- The one file of the directory is the most recent one.
  let file := (recordName recordSeven, chargeRecordStorage.text clock recordSeven)
  have hnewest : Newest [file] := List.pairwise_singleton _ file
  obtain ⟨dir', hperm, hfound⟩ : ∃ dir' : Dir, dir'.Perm [file] ∧
      findPathFile chargeRecordPath 0 [file] = some ⟨0, inPath chargeRecordPath file.1, 1, dir'⟩ :=
    findPathFile_eq (List.Perm.refl _) hnewest (by simp [file, hname]) (by simp) hpath (by simp) (by decide)
  exact ⟨_, _, hwrite, hfound, rfl, openFile_eq hperm hnewest List.mem_cons_self⟩

/-- It is read into a cleared record without the year of its start and without the request's number. -/
theorem charge_record_not_returned :
    ∃ dir m' dir', chargeRecordStorage.write ⟨64, 256⟩ chargeRecordPath 0 ⟨0, 0, 0, 1, 4, 8, 0x19⟩ recordSeven [] = some (0, dir) ∧
      chargeRecordStorage.read chargeRecordPath 0 (Vector.replicate 180 0) dir = some (0, m', dir') ∧
      byteAt recordSeven 10 = 0x11 ∧ byteAt m' 10 = 0 ∧ bytesAt recordSeven 20 17 = List.replicate 17 0x11 ∧
      bytesAt m' 20 17 = List.replicate 17 0 := by
  obtain ⟨dir, found, hwrite, hfound, -, hopen⟩ := recordSeven_found ⟨0, 0, 0, 1, 4, 8, 0x19⟩
  refine ⟨dir, _, found.dir, hwrite, chargeRecordStorage_read hfound hopen, ?_, ?_, ?_, ?_⟩
  all_goals decide +kernel

end RoundTrip

end EnergyRouter
