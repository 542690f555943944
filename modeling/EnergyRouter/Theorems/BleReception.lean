import EnergyRouter.Lib.Runs
import EnergyRouter.Theorems.BleFreshness

/-!
# Reception of frames over Bluetooth

Each frame among the bytes of a batch should be analysed once and in its place, and nothing else. The main result says when this is
so over every sequence of batches.
-/

namespace EnergyRouter

open Buffer Runs

/-! ## Batches -/

/-- A piece of what comes over the UART: a frame, or a byte that belongs to none. -/
inductive Segment
  | stray (b : Byte)
  | frame (p : Parts698)

def Segment.bytes : Segment → List Byte
  | stray b => [b]
  | frame p => p.bytes

def Segment.frame? : Segment → Option Parts698
  | stray _ => none
  | frame p => some p

/-- The bytes of a batch. -/
def batchBytes (batch : List Segment) : List Byte := batch.flatMap Segment.bytes

/-- The frames of a batch, in their order. -/
def batchFrames (batch : List Segment) : List Parts698 := batch.filterMap Segment.frame?

/-- The places of a batch that begins at `i` where a frame begins. -/
def frameStarts : Nat → List Segment → List Nat
  | _, [] => []
  | i, .stray _ :: batch => frameStarts (i + 1) batch
  | i, .frame p :: batch => i :: frameStarts (i + p.bytes.length) batch

/-- All frames of a batch are valid and have at most 255 bytes. -/
def ValidBatch (batch : List Segment) : Prop := ∀ p ∈ batchFrames batch, p.Valid ∧ p.bytes.length ≤ bleSlot

/-- The receiver, and what came since the thread looked last. -/
structure BleLine where
  receiver : BleReceiver
  pending : List Segment

/-- A batch comes, or the thread processes what has come; `respond` is what the analysis leaves of the records. -/
inductive BleOp
  | recv (batch : List Segment)
  | trans (respond : Nat → Ble698Frame → Ble698Frame)

def BleLine.step (l : BleLine) : BleOp → Option BleLine
  | .recv batch => (bleUartDataRecv (batchBytes batch) l.receiver).map fun r => ⟨r, l.pending ++ batch⟩
  | .trans respond => (bleTransRecv respond l.receiver).map fun r => ⟨r, []⟩

/-- The frames analysed so far, by their fields. -/
def BleLine.analysed (l : BleLine) : List Parts698 := l.receiver.analysed.map Ble698Frame.parts

/-- Every frame that has come is analysed once, in its order, when the thread looks, and nothing else is. -/
def AnalysesAll (l : BleLine) : BleOp → Prop
  | .recv batch => ∃ l', l.step (.recv batch) = some l' ∧ l'.analysed = l.analysed
  | .trans respond => ∃ l', l.step (.trans respond) = some l' ∧ l'.analysed = l.analysed ++ batchFrames l.pending

/-- The batches fit the buffer until the thread looks. Then there are at most three frames, which the decoder can read, and nothing
else passes for one. -/
def Sparse (l : BleLine) : BleOp → Prop
  | .recv batch => (batchBytes (l.pending ++ batch)).length < 1024
  | .trans _ => (batchFrames l.pending).length ≤ 3 ∧ (∀ p ∈ batchFrames l.pending, p.Readable) ∧
      ∀ i < l.receiver.rxPtr, i ∉ frameStarts 0 l.pending → bleFrameAt l.receiver.rxData i = some none

/-- Batches whose frames are valid. -/
def BleOp.Valid : BleOp → Prop
  | .recv batch => ValidBatch batch
  | .trans _ => True

/-- A receiver between two batches: nothing pending, nothing in the ring, and no request left over from AT mode. -/
structure BleReceiver.Idle (r : BleReceiver) : Prop where
  ptr : r.rxPtr = 0
  pre : r.rxPre = 0
  inAT : r.recv698InAT = false
  read : r.rxRead < 4
  write : r.rxWrite = r.rxRead

/-! ## The scan over a batch -/

theorem le_of_mem_frameStarts {batch : List Segment} {i j : Nat} (h : j ∈ frameStarts i batch) : i ≤ j := by
  induction batch generalizing i with
  | nil => cases h
  | cons segment batch ih =>
    cases segment with
    | stray b => exact Nat.le_of_succ_le (ih h)
    | frame p =>
      rcases List.mem_cons.mp h with rfl | hrest
      · exact Nat.le_refl j
      · exact Nat.le_of_add_right_le (ih hrest)

theorem freshFrames_skip {bytes : List Byte} (k n i : Nat)
    (hrefused : ∀ j, i ≤ j → j < i + k → freshFrameAt bytes j = some none) :
    freshFrames bytes (k + n) i = freshFrames bytes n (i + k) := by
  induction k generalizing i with
  | zero => rw [Nat.zero_add, Nat.add_zero]
  | succ k ih =>
    rw [Nat.succ_add, freshFrames, hrefused i (Nat.le_refl i) (by omega)]
    dsimp only
    rw [ih (i + 1) fun j hj hlt => hrefused j (by omega) (by omega), Nat.add_right_comm, Nat.add_assoc]

/-- In a batch whose frames alone pass for frames, the frames are what is found. -/
theorem freshFrames_batch {batch : List Segment} {rxData : Vector Byte 1024} {i : Nat} {rest : List Byte}
    (hdata : rxData.toList.drop i = batchBytes batch ++ rest) (hvalid : ValidBatch batch)
    (hclear : ∀ p ∈ batchFrames batch, p.ReservedClear)
    (hrefused : ∀ j, i ≤ j → j < i + (batchBytes batch).length → j ∉ frameStarts i batch → bleFrameAt rxData j = some none) :
    (∀ j, i ≤ j → j < i + (batchBytes batch).length → (bleFrameAt rxData j).isSome) ∧
      freshFrames rxData.toList (batchBytes batch).length i = (batchFrames batch).map Parts698.bytes := by
  induction batch generalizing i with
  | nil => exact ⟨fun j hj hlt => absurd hlt (Nat.not_lt.mpr hj), rfl⟩
  | cons segment batch ih =>
    cases segment with
    | stray b =>
      have hbytes : batchBytes (.stray b :: batch) = b :: batchBytes batch := rfl
      rw [hbytes, List.length_cons] at hrefused ⊢
      have hnot : i ∉ frameStarts i (.stray b :: batch) := by
        intro hmem
        have hle := le_of_mem_frameStarts (i := i + 1) hmem
        omega
      have hhere := hrefused i (Nat.le_refl i) (by omega) hnot
      have hnext : rxData.toList.drop (i + 1) = batchBytes batch ++ rest := by
        rw [← List.drop_drop, hdata, hbytes]
        rfl
      obtain ⟨hplaces, hframes⟩ := ih hnext hvalid hclear fun j hj hlt => hrefused j (by omega) (by omega)
      constructor
      · intro j hj hlt
        rcases Nat.eq_or_lt_of_le hj with rfl | hbehind
        · rw [hhere]
          rfl
        · exact hplaces j hbehind (by omega)
      · rw [freshFrames, ← bleFrameAt_eq, hhere]
        exact hframes
    | frame p =>
      have hbytes : batchBytes (.frame p :: batch) = p.bytes ++ batchBytes batch := rfl
      obtain ⟨⟨hp, -⟩, hvalid⟩ := List.forall_mem_cons.mp hvalid
      obtain ⟨hpclear, hclear⟩ := List.forall_mem_cons.mp hclear
      have hlen := p.bytes_length
      rw [hbytes, List.append_assoc] at hdata
      rw [hbytes, List.length_append] at hrefused ⊢
      -- the frame is found at its beginning, and nothing inside of it
      have hhere := bleFrameAt_frame hp hpclear hdata
      have hinside (j : Nat) (hj : i + 1 ≤ j) (hlt : j < i + 1 + (p.bytes.length - 1)) : bleFrameAt rxData j = some none := by
        refine hrefused j (by omega) (by omega) fun hmem => ?_
        rcases List.mem_cons.mp hmem with hfirst | hlater
        · omega
        · have hle := le_of_mem_frameStarts hlater
          omega
      have hnext : rxData.toList.drop (i + p.bytes.length) = batchBytes batch ++ rest := by
        rw [← List.drop_drop, hdata, List.drop_left]
      obtain ⟨hplaces, hframes⟩ := ih hnext hvalid hclear fun j hj hlt hnotmem => by
        refine hrefused j (by omega) (by omega) fun hmem => ?_
        rcases List.mem_cons.mp hmem with hfirst | hlater
        · omega
        · exact hnotmem hlater
      constructor
      · intro j hj hlt
        rcases Nat.eq_or_lt_of_le hj with rfl | hbehind
        · rw [hhere]
          rfl
        · by_cases hin : j < i + p.bytes.length
          · rw [hinside j hbehind (by omega)]
            rfl
          · exact hplaces j (by omega) (by omega)
      · have hskip := freshFrames_skip (p.bytes.length - 1) (batchBytes batch).length (i + 1)
          fun j hj hlt => (bleFrameAt_eq rxData j).symm.trans (hinside j hj hlt)
        have htake : (rxData.toList.drop i).take (p.bytes.length - 2 + 2) = p.bytes := by
          rw [hdata, List.take_left' (by omega)]
        rw [show p.bytes.length + (batchBytes batch).length = (p.bytes.length - 1 + (batchBytes batch).length) + 1 by omega,
          freshFrames, ← bleFrameAt_eq, hhere]
        dsimp only
        rw [hskip, htake, show i + 1 + (p.bytes.length - 1) = i + p.bytes.length by omega, hframes]
        rfl

/-! ## Steps -/

/-- What holds between the steps: the batches since the thread looked last stand at the start of the buffer. -/
structure BleLine.Inv (l : BleLine) : Prop where
  pre : l.receiver.rxPre = 0
  inAT : l.receiver.recv698InAT = false
  ring : SlotRing l.receiver.dataBuf l.receiver.rxRead l.receiver.rxWrite []
  ptr : l.receiver.rxPtr = (batchBytes l.pending).length
  fresh : front l.receiver.rxData l.receiver.rxPtr = batchBytes l.pending
  room : (batchBytes l.pending).length < 1024
  valid : ValidBatch l.pending

theorem batchBytes_append (a b : List Segment) : batchBytes (a ++ b) = batchBytes a ++ batchBytes b := by
  simp [batchBytes]

theorem validBatch_append {a b : List Segment} (ha : ValidBatch a) (hb : ValidBatch b) : ValidBatch (a ++ b) := by
  intro p hp
  rw [batchFrames, List.filterMap_append] at hp
  rcases List.mem_append.mp hp with hfirst | hsecond
  · exact ha p hfirst
  · exact hb p hsecond

theorem BleLine.recv_step {l : BleLine} (hinv : l.Inv) {batch : List Segment} (hvalid : ValidBatch batch)
    (hsparse : Sparse l (.recv batch)) : ∃ l', l.step (.recv batch) = some l' ∧ l'.analysed = l.analysed ∧ l'.Inv := by
  have hroom : (batchBytes l.pending).length + (batchBytes batch).length < 1024 := by
    have hsum : (batchBytes (l.pending ++ batch)).length < 1024 := hsparse
    rwa [batchBytes_append, List.length_append] at hsum
  have hptr := hinv.ptr
  have hblit : blit l.receiver.rxData l.receiver.rxPtr (batchBytes batch) (batchBytes batch).length =
      some (copyAt l.receiver.rxData l.receiver.rxPtr (batchBytes batch)) := blit_of_length rfl (by omega)
  have hfront := front_copyAt l.receiver.rxData l.receiver.rxPtr (batchBytes batch) (by omega)
  have hrecv : bleUartDataRecv (batchBytes batch) l.receiver = some { l.receiver with
      rxData := copyAt l.receiver.rxData l.receiver.rxPtr (batchBytes batch)
      rxPtr := l.receiver.rxPtr + (batchBytes batch).length
      rxBeg := true } := by
    rw [bleUartDataRecv, if_neg (by omega), hblit]
    rfl
  refine ⟨_, congrArg (Option.map _) hrecv, rfl, ?_⟩
  refine ⟨hinv.pre, hinv.inAT, hinv.ring, ?_, ?_, ?_, validBatch_append hinv.valid hvalid⟩
  · rw [batchBytes_append, List.length_append, ← hptr]
  · rw [batchBytes_append, ← hinv.fresh]
    exact hfront
  · rw [batchBytes_append, List.length_append]
    exact hroom

theorem BleLine.trans_step {l : BleLine} (hinv : l.Inv) {respond : Nat → Ble698Frame → Ble698Frame}
    (hsparse : Sparse l (.trans respond)) :
    ∃ l', l.step (.trans respond) = some l' ∧ l'.analysed = l.analysed ++ batchFrames l.pending ∧ l'.Inv := by
  obtain ⟨hthree, hreadable, hrefused⟩ := hsparse
  have hptr := hinv.ptr
  have hroom := hinv.room
  have hdata : l.receiver.rxData.toList.drop 0 =
      batchBytes l.pending ++ l.receiver.rxData.toList.drop (batchBytes l.pending).length := by
    have hfresh := hinv.fresh
    rw [hptr] at hfresh
    exact toList_of_front hfresh
  obtain ⟨hplaces, hframes⟩ := freshFrames_batch hdata hinv.valid (fun p hp => (hreadable p hp).reserved)
    fun j _ hlt hnotmem => hrefused j (by omega) hnotmem
  have hshort : ∀ f ∈ freshFrames l.receiver.rxData.toList (batchBytes l.pending).length 0, f.length ≤ bleSlot := by
    rw [hframes]
    intro f hf
    obtain ⟨p, hp, rfl⟩ := List.mem_map.mp hf
    exact (hinv.valid p hp).2
  obtain ⟨s₁, hscan, hr₁⟩ := bleScan_slotRing hinv.ring (by omega) hplaces hshort
  rw [List.nil_append, hframes] at hr₁
  have hsame := bleScan_sameReader hscan
  have htake : bleTakeGetAddr l.receiver = some l.receiver := by
    rw [bleTakeGetAddr, hinv.inAT]
    rfl
  rw [← hptr] at hscan
  have hcheck := bleCheckDataToBuf_of_scan htake hinv.pre hscan
  obtain ⟨s₂, hdrain, hr₂, -, hat₂, hanalysed₂⟩ := bleDrain_readable respond hr₁ hthree
    (fun p hp => ⟨(hinv.valid p hp).1, hreadable p hp⟩) (Nat.le_succ_of_le hthree)
  refine ⟨⟨s₂.looked, []⟩, ?_, ?_, ?_⟩
  · rw [BleLine.step, bleTransRecv_of_check hcheck, hdrain]
    rfl
  · show s₂.analysed.map Ble698Frame.parts = _
    rw [hanalysed₂, hsame.analysed]
    rfl
  · refine ⟨rfl, ?_, hr₂, rfl, ?_, Nat.zero_lt_succ _, List.forall_mem_nil _⟩
    · show s₂.recv698InAT = false
      rw [hat₂, hsame.inAT, hinv.inAT]
    · exact front_zero _

/-! ## Runs -/

/-- Over every sequence of valid batches, each frame is analysed exactly once and in order and nothing else is, as long as the frames
are sparse enough for the buffer, the ring and the scan. -/
theorem ble_frames_analysed {r : BleReceiver} (hr : r.Idle) {ops : List BleOp} (hvalid : ∀ op ∈ ops, op.Valid)
    (hsparse : Meets BleLine.step Sparse ⟨r, []⟩ ops) : Meets BleLine.step AnalysesAll ⟨r, []⟩ ops := by
  have hinv : BleLine.Inv ⟨r, []⟩ := by
    refine ⟨hr.pre, hr.inAT, slotRing_nil _ hr.read hr.write, hr.ptr, ?_, Nat.zero_lt_succ _, nofun⟩
    rw [hr.ptr, front_zero]
    rfl
  refine (hsparse.and_of_mem hvalid).imp_of_inv ?_ ?_ hinv
  · rintro l op l' hl ⟨hop, hsparse⟩ hstep
    cases op with
    | recv batch =>
      obtain ⟨l₁, hstep₁, -, hl₁⟩ := BleLine.recv_step hl hop hsparse
      cases hstep.symm.trans hstep₁
      exact hl₁
    | trans respond =>
      obtain ⟨l₁, hstep₁, -, hl₁⟩ := BleLine.trans_step hl hsparse
      cases hstep.symm.trans hstep₁
      exact hl₁
  · rintro l op hl ⟨hop, hsparse⟩
    cases op with
    | recv batch =>
      obtain ⟨l₁, hstep₁, hanalysed, -⟩ := BleLine.recv_step hl hop hsparse
      exact ⟨l₁, hstep₁, hanalysed⟩
    | trans respond =>
      obtain ⟨l₁, hstep₁, hanalysed, -⟩ := BleLine.trans_step hl hsparse
      exact ⟨l₁, hstep₁, hanalysed⟩

instance (l : BleLine) (op : BleOp) : Decidable (Sparse l op) :=
  match op with
  | .recv batch => inferInstanceAs (Decidable ((batchBytes (l.pending ++ batch)).length < 1024))
  | .trans _ => inferInstanceAs (Decidable (_ ∧ _ ∧ _))

/-- The receiver at power-up. -/
def zeroReceiver : BleReceiver :=
  ⟨Vector.replicate 1024 0, false, 0, 0, Vector.replicate 1020 0, 0, 0, false, zeroBleFrame, false, [], []⟩

theorem ble_frames_analysed_getAddr :
    Meets BleLine.step AnalysesAll ⟨zeroReceiver, []⟩ [.recv [.stray 0, .frame getAddrParts], .trans fun _ d => d] := by
  have hvalid : ValidBatch [.stray 0, .frame getAddrParts] := by
    intro p hp
    rw [List.mem_singleton.mp hp]
    exact ⟨getAddrParts_valid, by decide⟩
  refine ble_frames_analysed ⟨rfl, rfl, rfl, by decide, rfl⟩ ?_ (by decide +kernel)
  intro op hop
  rcases List.mem_pair.mp hop with rfl | rfl
  · exact hvalid
  · trivial

/-- A frame with one byte of address and one of user data. -/
def shortParts : Parts698 where
  length0 := 0x0b
  length1 := 0x00
  control := 0x43
  sa := 0x40
  sAddr := [0xAA]
  ca := 0x10
  hcs0 := 0xa8
  hcs1 := 0xad
  apdu := [0x05]
  fcs0 := 0x61
  fcs1 := 0x91

/-- A frame whose user data are the one before. -/
def nestedParts : Parts698 :=
  { shortParts with length0 := 0x17, hcs0 := 0xec, hcs1 := 0xde, apdu := shortParts.bytes, fcs0 := 0xb1, fcs1 := 0x14 }

/-- Of four frames in one batch none is analysed; of a frame inside of a frame both go to the ring. -/
theorem four_frames_lost_nested_enqueued :
    shortParts.Valid ∧ nestedParts.Valid ∧
    (run BleLine.step ⟨zeroReceiver, []⟩ [.recv (List.replicate 4 (.frame shortParts)), .trans fun _ d => d]).map
      (fun l => l.receiver.analysed.length) = some 0 ∧
    ((bleUartDataRecv nestedParts.bytes zeroReceiver).bind bleCheckDataToBuf).map (fun p => p.2.enqueued) =
      some [nestedParts.bytes, shortParts.bytes] :=
  ⟨⟨by decide, by decide, by decide, by decide⟩, ⟨by decide, by decide, by decide, by decide⟩,
    by decide +kernel, by decide +kernel⟩

end EnergyRouter
