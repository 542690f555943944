import EnergyRouter.Lemmas.BleReceive
import EnergyRouter.Lib.Reader

/-!
# Frames out of fresh bytes

The receive buffer keeps what earlier batches left, and the tests for a frame do not ask how much was received. The main result says
when what is found depends only on what came since the last look.
-/

namespace EnergyRouter

open Buffer Reader

variable {bytes : List Byte} {i n : Nat} {s s' t : BleReceiver} {ended : Bool} {respond : Nat → Ble698Frame → Ble698Frame}

/-! ## Two receivers -/

/-- The bytes received since the thread looked last. -/
def BleReceiver.fresh (s : BleReceiver) : List Byte := front s.rxData s.rxPtr

/-- What comes in several readings of the UART. -/
def receiveAll (s : BleReceiver) (readings : List (List Byte)) : Option BleReceiver :=
  readings.foldlM (fun s bytes => bleUartDataRecv bytes s) s

/-- What a call put into the ring. -/
def newlyEnqueued (s s' : BleReceiver) : List (List Byte) := s'.enqueued.drop s.enqueued.length

/-- Two receivers with any past look for frames, then receive the same and look again. If `P` holds of that, they put the same
frames into the ring. -/
def FreshFramesOn (P : List Byte → Prop) : Prop :=
  ∀ respond respond' past past' s s' readings t t' res res' u u',
    bleTransRecv respond past = some s → bleTransRecv respond' past' = some s' →
    receiveAll s readings = some t → receiveAll s' readings = some t' → P t.fresh →
    bleCheckDataToBuf t = some (res, u) → bleCheckDataToBuf t' = some (res', u') → newlyEnqueued t u = newlyEnqueued t' u'

/-- At every place received, the tests look at received bytes only. -/
def SelfContained (bytes : List Byte) : Prop := ∀ i < bytes.length, (freshFrameAt bytes i).isSome

instance (bytes : List Byte) : Decidable (SelfContained bytes) :=
  inferInstanceAs (Decidable (∀ i < bytes.length, (freshFrameAt bytes i).isSome))

/-- The frames that begin at the `n` places from `i` on. -/
def freshFrames (bytes : List Byte) : Nat → Nat → List (List Byte)
  | 0, _ => []
  | n + 1, i =>
    match freshFrameAt bytes i with
    | some (some lenth) => (bytes.drop i).take (lenth + 2) :: freshFrames bytes n (i + 1)
    | _ => freshFrames bytes n (i + 1)

/-! ## The tests on a longer list -/

theorem pppfcs16Loop_local (fcs : BitVec 16) (len : Nat) : Local fun cp => pppfcs16Loop fcs cp len := by
  refine ⟨fun {cp r} h behind => ?_⟩
  induction len generalizing fcs cp with
  | zero => cases cp <;> cases behind <;> exact h
  | succ len ih =>
    cases cp with
    | nil => cases h
    | cons b cp => exact ih _ h

theorem goodWithin_local (i n : Nat) : Local fun bytes => goodWithin bytes i n := ((pppfcs16Loop_local _ n).drop i).map _

/-- Tests that looked at received bytes only come out the same whatever stands behind these. -/
theorem freshFrameAt_local (i : Nat) : Local fun bytes => freshFrameAt bytes i := by
  refine .bind (local_getElem _) fun _ => .ite (local_some _) (.bind (local_getElem _) fun _ => .bind (local_getElem _) fun _ => ?_)
  refine .bind (local_getElem _) fun _ => .ite (local_some _) (.bind (local_getElem _) fun _ => .bind (goodWithin_local ..) fun _ => ?_)
  exact .ite (local_some _) (.bind (goodWithin_local ..) fun _ => local_some _)

/-- A frame found by looking at received bytes only lies among them. -/
theorem freshFrameAt_inside {lenth : Nat} (h : freshFrameAt bytes i = some (some lenth)) : i + lenth + 2 ≤ bytes.length := by
  have hlast := (List.getElem?_eq_some_iff.mp (freshFrameAt_inv h).2.2).1
  omega

theorem length_found {rxData : Vector Byte 1024} {lenth : Nat} (h : bleFrameAt rxData i = some (some lenth)) :
    ((rxData.toList.drop i).take (lenth + 2)).length = lenth + 2 := by
  rw [bleFrameAt_eq] at h
  have hinside := freshFrameAt_inside h
  rw [List.length_take, List.length_drop]
  omega

/-! ## The scan -/

/-- A scan that has an outcome came to its end, looked inside the buffer and copied the frames in it. -/
theorem bleScan_inv (hin : i + n ≤ 1024) (h : bleScan n i s = some (ended, s')) :
    ended = true ∧ (∀ j, i ≤ j → j < i + n → (bleFrameAt s.rxData j).isSome) ∧
      s'.enqueued = s.enqueued ++ freshFrames s.rxData.toList n i := by
  induction n generalizing i s with
  | zero =>
    cases h
    exact ⟨rfl, fun j hj hlt => by omega, (List.append_nil _).symm⟩
  | succ n ih =>
    rw [bleScan, if_neg (by omega)] at h
    obtain ⟨found, hfound, h⟩ := Option.bind_eq_some_iff.mp h
    have hfresh := (bleFrameAt_eq s.rxData i).symm.trans hfound
    have hplaces (hrest : ∀ j, i + 1 ≤ j → j < i + 1 + n → (bleFrameAt s.rxData j).isSome) :
        ∀ j, i ≤ j → j < i + (n + 1) → (bleFrameAt s.rxData j).isSome := by
      intro j hj hlt
      rcases Nat.eq_or_lt_of_le hj with rfl | hbehind
      · rw [hfound]
        rfl
      · exact hrest j hbehind (by omega)
    cases found with
    | none =>
      obtain ⟨hended, hrest, henqueued⟩ := ih (by omega) h
      simp only [freshFrames, hfresh]
      exact ⟨hended, hplaces hrest, henqueued⟩
    | some lenth =>
      obtain ⟨s₁, henqueue, h⟩ := Option.bind_eq_some_iff.mp h
      obtain ⟨dataBuf, -, henqueue⟩ := Option.bind_eq_some_iff.mp henqueue
      cases henqueue
      obtain ⟨hended, hrest, henqueued⟩ := ih (by omega) h
      simp only [freshFrames, hfresh]
      refine ⟨hended, hplaces hrest, henqueued.trans ?_⟩
      rw [List.append_assoc, List.singleton_append]

/-- A scan over places that can be tested copies what it finds, when it fits. -/
theorem bleScan_slotRing {fs : List (List Byte)} (hr : SlotRing s.dataBuf s.rxRead s.rxWrite fs) (hin : i + n ≤ 1024)
    (hplaces : ∀ j, i ≤ j → j < i + n → (bleFrameAt s.rxData j).isSome)
    (hshort : ∀ f ∈ freshFrames s.rxData.toList n i, f.length ≤ bleSlot) :
    ∃ s', bleScan n i s = some (true, s') ∧
      SlotRing s'.dataBuf s'.rxRead s'.rxWrite (fs ++ freshFrames s.rxData.toList n i) := by
  induction n generalizing i s fs with
  | zero => exact ⟨s, rfl, by rwa [freshFrames, List.append_nil]⟩
  | succ n ih =>
    obtain ⟨found, hfound⟩ := Option.isSome_iff_exists.mp (hplaces i (Nat.le_refl i) (by omega))
    have hfresh := (bleFrameAt_eq s.rxData i).symm.trans hfound
    have hrest (j : Nat) (hj : i + 1 ≤ j) (hlt : j < i + 1 + n) : (bleFrameAt s.rxData j).isSome :=
      hplaces j (by omega) (by omega)
    rw [bleScan, if_neg (by omega), hfound, Option.bind_eq_bind, Option.bind_some]
    cases found with
    | none =>
      simp only [freshFrames, hfresh] at hshort ⊢
      exact ih hr (by omega) hrest hshort
    | some lenth =>
      simp only [freshFrames, hfresh] at hshort ⊢
      obtain ⟨hfirst, hshort⟩ := List.forall_mem_cons.mp hshort
      obtain ⟨s₁, henqueue, hsame, hring, -⟩ :=
        bleEnqueue_slotRing hr (List.take_append_drop _ _).symm (length_found hfound) hfirst
      rw [henqueue, Option.bind_eq_bind, Option.bind_some, List.append_cons]
      have hnext := ih hring (i := i + 1) (by omega)
      rw [hsame.rxData] at hnext
      exact hnext hrest hshort

/-- The frames among bytes that are all the tests look at, whatever stands behind these. -/
theorem freshFrames_append (hself : SelfContained bytes) (rest : List Byte) (hin : i + n ≤ bytes.length) :
    freshFrames (bytes ++ rest) n i = freshFrames bytes n i := by
  induction n generalizing i with
  | zero => rfl
  | succ n ih =>
    obtain ⟨found, hfound⟩ := Option.isSome_iff_exists.mp (hself i (by omega))
    have hlonger := (freshFrameAt_local i).append hfound rest
    have hrest := ih (show i + 1 + n ≤ bytes.length by omega)
    cases found with
    | none => simp only [freshFrames, hfound, hlonger, hrest]
    | some lenth =>
      have hinside := freshFrameAt_inside hfound
      have htake : ((bytes ++ rest).drop i).take (lenth + 2) = (bytes.drop i).take (lenth + 2) := by
        rw [List.drop_append_of_le_length (by omega), List.take_append_of_le_length (by rw [List.length_drop]; omega)]
      simp only [freshFrames, hfound, hlonger, hrest, htake]

/-- The scan over all the bytes the tests look at puts the frames among them into the ring. -/
theorem bleScan_fresh (hself : SelfContained bytes) (hin : i + n = bytes.length) (hfront : front s.rxData bytes.length = bytes)
    (hle : bytes.length ≤ 1024) (h : bleScan n i s = some (ended, s')) : s'.enqueued = s.enqueued ++ freshFrames bytes n i := by
  have henqueued := (bleScan_inv (by omega) h).2.2
  rwa [toList_of_front hfront, freshFrames_append hself _ (by omega)] at henqueued

/-! ## Receiving the same -/

/-- Two receivers that have received the same since they looked last, and have no request left over from AT mode. -/
structure SameFresh (s s' : BleReceiver) : Prop where
  ptr : s.rxPtr = s'.rxPtr
  fresh : s.fresh = s'.fresh
  le : s.rxPtr ≤ 1024
  pre : s.rxPre = 0
  pre' : s'.rxPre = 0
  inAT : s.recv698InAT = false
  inAT' : s'.recv698InAT = false

theorem receiveAll_sameFresh {readings : List (List Byte)} {t' : BleReceiver} (h : SameFresh s s')
    (ht : receiveAll s readings = some t) (ht' : receiveAll s' readings = some t') : SameFresh t t' := by
  induction readings generalizing s s' with
  | nil =>
    cases ht
    cases ht'
    exact h
  | cons bytes readings ih =>
    obtain ⟨s₁, hs₁, ht⟩ := Option.bind_eq_some_iff.mp ht
    obtain ⟨s₁', hs₁', ht'⟩ := Option.bind_eq_some_iff.mp ht'
    refine ih ?_ ht ht'
    obtain ⟨rxData, hcopy, hs₁⟩ := Option.bind_eq_some_iff.mp hs₁
    obtain ⟨rxData', hcopy', hs₁'⟩ := Option.bind_eq_some_iff.mp hs₁'
    cases hs₁
    cases hs₁'
    rw [← h.ptr] at hcopy' ⊢
    have hfresh : front s.rxData s.rxPtr = front s'.rxData s.rxPtr := by
      have hsame := h.fresh
      rwa [BleReceiver.fresh, BleReceiver.fresh, ← h.ptr] at hsame
    -- where the bytes go, both fronts are the same
    have hplace : front s.rxData (if 1024 ≤ s.rxPtr + bytes.length then 0 else s.rxPtr) =
        front s'.rxData (if 1024 ≤ s.rxPtr + bytes.length then 0 else s.rxPtr) := by
      split_ifs
      · rw [front_zero, front_zero]
      · exact hfresh
    generalize (if 1024 ≤ s.rxPtr + bytes.length then 0 else s.rxPtr) = ptr at hcopy hcopy' hplace ⊢
    rw [blit] at hcopy hcopy'
    split_ifs at hcopy hcopy' with hfits
    cases hcopy
    cases hcopy'
    rw [List.take_length]
    refine ⟨rfl, ?_, hfits.1, h.pre, h.pre', h.inAT, h.inAT'⟩
    show front (copyAt s.rxData ptr bytes) (ptr + bytes.length) = front (copyAt s'.rxData ptr bytes) (ptr + bytes.length)
    rw [front_copyAt _ _ _ hfits.1, front_copyAt _ _ _ hfits.1, hplace]

theorem bleTakeGetAddr_inAT (h : bleTakeGetAddr s = some s') : s'.recv698InAT = false := by
  unfold bleTakeGetAddr at h
  split_ifs at h with hflag
  · obtain ⟨rxData, -, h⟩ := Option.bind_eq_some_iff.mp h
    cases h
    rfl
  · cases h
    exact Bool.not_eq_true _ ▸ hflag

theorem bleScan_sameReader (h : bleScan n i s = some (ended, s')) :
    SameReader s s' := by
  induction n generalizing i s with
  | zero =>
    cases h
    exact SameReader.refl _
  | succ n ih =>
    rw [bleScan] at h
    split_ifs at h with hbehind
    · cases h
      exact SameReader.refl _
    · obtain ⟨found, -, h⟩ := Option.bind_eq_some_iff.mp h
      cases found with
      | none => exact ih h
      | some lenth =>
        obtain ⟨s₁, henqueue, h⟩ := Option.bind_eq_some_iff.mp h
        obtain ⟨dataBuf, -, henqueue⟩ := Option.bind_eq_some_iff.mp henqueue
        cases henqueue
        have hrest := ih h
        exact ⟨hrest.rxData, hrest.rxRead, hrest.inAT, hrest.analysed⟩

theorem bleDrain_inAT (h : bleDrain respond n s = some s') : s'.recv698InAT = s.recv698InAT := by
  have hturn : ∀ t t' : BleReceiver, t.recv698InAT = s.recv698InAT → bleAnalyse respond t = some t' →
      t'.recv698InAT = s.recv698InAT := fun t t' ht hanalyse => (bleAnalyse_inv hanalyse).1.trans ht
  exact (bleDrain_keeps hturn rfl h).1

theorem bleTransRecv_clean {past : BleReceiver} (h : bleTransRecv respond past = some s) :
    s.rxPtr = 0 ∧ s.rxPre = 0 ∧ s.recv698InAT = false := by
  unfold bleTransRecv at h
  obtain ⟨⟨res, s₁⟩, hcheck, h⟩ := Option.bind_eq_some_iff.mp h
  obtain ⟨s₀, htake, hcheck⟩ := Option.bind_eq_some_iff.mp hcheck
  obtain ⟨⟨ended, s₂⟩, hscan, hcheck⟩ := Option.bind_eq_some_iff.mp hcheck
  obtain ⟨-, rfl⟩ := Prod.mk.inj (Option.some.inj hcheck)
  have hat := (bleScan_sameReader hscan).inAT.trans (bleTakeGetAddr_inAT htake)
  dsimp only at h
  split_ifs at h with hres
  · obtain ⟨s₃, hdrain, h⟩ := Option.bind_eq_some_iff.mp h
    cases h
    exact ⟨rfl, rfl, (bleDrain_inAT hdrain).trans hat⟩
  · cases h
    exact ⟨rfl, rfl, hat⟩

/-! ## All receivers -/

/-- What a receiver that looks puts into the ring, when the tests look at received bytes only. -/
theorem bleCheckDataToBuf_fresh {u : BleReceiver} {res : RtErr} (hpre : t.rxPre = 0) (hat : t.recv698InAT = false)
    (hle : t.rxPtr ≤ 1024) (hself : SelfContained t.fresh) (h : bleCheckDataToBuf t = some (res, u)) :
    newlyEnqueued t u = freshFrames t.fresh t.fresh.length 0 := by
  have hlen : t.fresh.length = t.rxPtr := front_length hle
  have htake : bleTakeGetAddr t = some t := by
    rw [bleTakeGetAddr, hat]
    rfl
  unfold bleCheckDataToBuf at h
  rw [htake, Option.bind_eq_bind, Option.bind_some] at h
  obtain ⟨⟨ended, s₁⟩, hscan, h⟩ := Option.bind_eq_some_iff.mp h
  cases h
  rw [hpre, Nat.sub_zero, ← hlen] at hscan
  have hfront : front t.rxData t.fresh.length = t.fresh := by rw [hlen, BleReceiver.fresh]
  rw [newlyEnqueued, bleScan_fresh hself (Nat.zero_add _) hfront (by omega) hscan, List.drop_left]

/-- Two receivers that received the same bytes find the same frames, whatever came before, when the tests for a frame look at
received bytes only. -/
theorem fresh_frames_only (bytes : List Byte) (hself : SelfContained bytes) : FreshFramesOn (· = bytes) := by
  rintro respond respond' past past' s s' readings t t' res res' u u' hs hs' ht ht' rfl hu hu'
  obtain ⟨hptr, hpre, hat⟩ := bleTransRecv_clean hs
  obtain ⟨hptr', hpre', hat'⟩ := bleTransRecv_clean hs'
  have hclean : SameFresh s s' := by
    refine ⟨hptr.trans hptr'.symm, ?_, by omega, hpre, hpre', hat, hat'⟩
    rw [BleReceiver.fresh, BleReceiver.fresh, hptr, hptr', front_zero, front_zero]
  have hsame := receiveAll_sameFresh hclean ht ht'
  rw [bleCheckDataToBuf_fresh hsame.pre hsame.inAT hsame.le hself hu,
    bleCheckDataToBuf_fresh hsame.pre' hsame.inAT' (hsame.ptr ▸ hsame.le) (hsame.fresh ▸ hself) hu', hsame.fresh]

/-- A request for the address is found as it came. -/
theorem get_addr_found_alike : freshFrames ble698GetAddr 25 0 = [ble698GetAddr] ∧ FreshFramesOn (· = ble698GetAddr) :=
  ⟨by decide, fresh_frames_only ble698GetAddr (by decide)⟩

/-- A receiver at power-up with bytes in its buffer. -/
def holdingReceiver (bytes : List Byte) : BleReceiver :=
  ⟨copyAt (Vector.replicate 1024 0) 0 bytes, false, bytes.length, 0, Vector.replicate 1020 0, 0, 0, false, zeroBleFrame, false, [], []⟩

/-- What a receiver finds in the first ten bytes of a frame, after an earlier batch. -/
def foundAfter (earlier : List Byte) : Option (List (List Byte)) := do
  let s ← bleTransRecv (fun _ d => d) (holdingReceiver earlier)
  let t ← receiveAll s [ble698GetAddr.take 10]
  let (_, u) ← bleCheckDataToBuf t
  some (newlyEnqueued t u)

/-- The rest of the frame is taken from an earlier batch. -/
theorem truncated_frame_completed : foundAfter ble698GetAddr = some [ble698GetAddr] ∧ foundAfter [] = some [] := by
  decide +kernel

end EnergyRouter
