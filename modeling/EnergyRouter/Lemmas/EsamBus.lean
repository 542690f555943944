import EnergyRouter.EsamBus
import EnergyRouter.Lemmas.EsamReply

/-!
# The turns of the receive loop

What the loop does depends on the line alone. Its front is cut into pieces, one for each turn that goes on: a byte that is no start
byte, or a reply that is given up. The first turns of an exchange are those of the cut.
-/

namespace EnergyRouter

open Buffer

variable {spi : Spi} {pos others rejected fuel count : Nat}

/-! ## A turn -/

/-- The length the driver takes for the rest of a reply, whose start byte is at a place of the line. -/
def lenthAt (spi : Spi) (pos : Nat) : Nat := replyLenth (spi.line (pos + 3)) (spi.line (pos + 4))

/-- The bytes it takes for the reply. -/
def replyAt (spi : Spi) (pos : Nat) : List Byte := spi.read (pos + 1) (4 + lenthAt spi pos)

/-- The last of them is the check of the others. -/
def CheckedAt (spi : Spi) (pos : Nat) : Prop :=
  (replyAt spi pos).getD (lenthAt spi pos + 3) 0 = esamCheck ((replyAt spi pos).take (lenthAt spi pos + 3))
deriving Decidable

@[simp] theorem Spi.length_read (spi : Spi) (pos n : Nat) : (spi.read pos n).length = n := by simp [Spi.read]

theorem Spi.read_add (spi : Spi) (pos m n : Nat) : spi.read pos (m + n) = spi.read pos m ++ spi.read (pos + m) n := by
  rw [Spi.read, List.range_add, List.map_append, List.map_map, Spi.read, Spi.read]
  simp only [Function.comp_def, Nat.add_assoc]

@[simp] theorem length_replyAt (spi : Spi) (pos : Nat) : (replyAt spi pos).length = lenthAt spi pos + 4 := by
  rw [replyAt, Spi.length_read, Nat.add_comm]

/-- The calls that read a reply. -/
def replyCalls (spi : Spi) (pos : Nat) : List BusCall :=
  [.recv 0 [spi.line pos], .recv 0 (spi.read (pos + 1) 4), .recv 4 (spi.read (pos + 5) (lenthAt spi pos)), .release]

theorem recvCalls_succ (spi : Spi) (fuel pos count : Nat) :
    recvCalls spi (fuel + 1) pos count =
      if count < 50000 then
        if spi.line pos = 0x55 then
          if lenthAt spi pos < 1023 then
            if CheckedAt spi pos then (.accepted (replyAt spi pos), replyCalls spi pos ++ [.release, .releaseBus, .exitCritical])
            else
              ((recvCalls spi fuel (pos + 5 + lenthAt spi pos) count).1,
                replyCalls spi pos ++ .take :: (recvCalls spi fuel (pos + 5 + lenthAt spi pos) count).2)
          else
            ((recvCalls spi fuel (pos + 5) count).1,
              .recv 0 [spi.line pos] :: .recv 0 (spi.read (pos + 1) 4) :: (recvCalls spi fuel (pos + 5) count).2)
        else
          ((recvCalls spi fuel (pos + 1) (count + 1)).1, .recv 0 [spi.line pos] :: (recvCalls spi fuel (pos + 1) (count + 1)).2)
      else (.failed, [.release, .releaseBus, .exitCritical]) := by
  have hlenth : replyLenth ((spi.read (pos + 1) 4).getD 2 0) ((spi.read (pos + 1) 4).getD 3 0) = lenthAt spi pos := rfl
  have hreply : spi.read (pos + 1) 4 ++ spi.read (pos + 5) (lenthAt spi pos) = replyAt spi pos := (spi.read_add (pos + 1) 4 _).symm
  rw [recvCalls]
  simp only [hlenth, hreply]
  rfl

/-! ## The cut of the line -/

/-- The front of the line up to `pos` is cut into `others` bytes that are no start byte, fewer than 50000 of them, and `rejected`
replies that are given up. -/
inductive Cut (spi : Spi) : Nat → Nat → Nat → Prop
  | start : Cut spi 0 0 0
  | other {pos others rejected : Nat} (h : Cut spi pos others rejected) (hcount : others < 50000) (hbyte : spi.line pos ≠ 0x55) :
    Cut spi (pos + 1) (others + 1) rejected
  | long {pos others rejected : Nat} (h : Cut spi pos others rejected) (hcount : others < 50000) (hbyte : spi.line pos = 0x55)
    (hlong : 1023 ≤ lenthAt spi pos) : Cut spi (pos + 5) others (rejected + 1)
  | wrong {pos others rejected : Nat} (h : Cut spi pos others rejected) (hcount : others < 50000) (hbyte : spi.line pos = 0x55)
    (hshort : lenthAt spi pos < 1023) (hcheck : ¬ CheckedAt spi pos) :
    Cut spi (pos + 5 + lenthAt spi pos) others (rejected + 1)

theorem readsOf_append (calls calls' : List BusCall) : readsOf (calls ++ calls') = readsOf calls + readsOf calls' := List.countP_append

theorem readsOf_recv (place : Nat) (data : List Byte) (calls : List BusCall) :
    readsOf (.recv place data :: calls) = readsOf calls + 1 := List.countP_cons_of_pos rfl

theorem readsOf_take (calls : List BusCall) : readsOf (.take :: calls) = readsOf calls := List.countP_cons_of_neg Bool.false_ne_true

theorem readsOf_replyCalls (spi : Spi) (pos : Nat) : readsOf (replyCalls spi pos) = 3 := rfl

/-- The loop goes through the pieces of a cut, a turn for each. -/
theorem Cut.recvCalls (h : Cut spi pos others rejected) :
    ∃ before, rejected ≤ readsOf before ∧ ∀ fuel,
      recvCalls spi (fuel + others + rejected) 0 0 =
        ((recvCalls spi fuel pos others).1, before ++ (recvCalls spi fuel pos others).2) := by
  induction h with
  | start => exact ⟨[], Nat.zero_le _, fun fuel => rfl⟩
  | @other pos others rejected _ hcount hbyte ih =>
    obtain ⟨before, hreads, hbefore⟩ := ih
    refine ⟨before ++ [.recv 0 [spi.line pos]], by rw [readsOf_append]; omega, ?_⟩
    intro fuel
    rw [show fuel + (others + 1) + rejected = fuel + 1 + others + rejected by omega, hbefore, recvCalls_succ, if_pos hcount,
      if_neg hbyte, List.append_assoc]
    rfl
  | @long pos others rejected _ hcount hbyte hlong ih =>
    obtain ⟨before, hreads, hbefore⟩ := ih
    refine ⟨before ++ [.recv 0 [spi.line pos], .recv 0 (spi.read (pos + 1) 4)], ?_, ?_⟩
    · rw [readsOf_append]
      exact Nat.add_le_add hreads (by decide : 1 ≤ 2)
    · intro fuel
      rw [show fuel + others + (rejected + 1) = fuel + 1 + others + rejected by omega, hbefore, recvCalls_succ, if_pos hcount,
        if_pos hbyte, if_neg (Nat.not_lt.mpr hlong), List.append_assoc]
      rfl
  | @wrong pos others rejected _ hcount hbyte hshort hcheck ih =>
    obtain ⟨before, hreads, hbefore⟩ := ih
    refine ⟨before ++ (replyCalls spi pos ++ [.take]), ?_, ?_⟩
    · rw [readsOf_append]
      exact Nat.add_le_add hreads (by decide : 1 ≤ 3)
    · intro fuel
      rw [show fuel + others + (rejected + 1) = fuel + 1 + others + rejected by omega, hbefore, recvCalls_succ, if_pos hcount,
        if_pos hbyte, if_pos hshort, if_neg hcheck, List.append_assoc, List.append_assoc]
      rfl

/-! ## What the loop leaves -/

/-- Turns that are not needed change nothing. -/
theorem recvCalls_stable (h : (recvCalls spi fuel pos count).1 ≠ .running) (more : Nat) :
    recvCalls spi (fuel + more) pos count = recvCalls spi fuel pos count := by
  induction fuel generalizing pos count with
  | zero => exact absurd rfl h
  | succ fuel ih =>
    rw [show fuel + 1 + more = fuel + more + 1 by omega, recvCalls_succ, recvCalls_succ]
    rw [recvCalls_succ] at h
    split_ifs at h ⊢ with hcount hbyte hshort hcheck
    · rfl
    · rw [ih h]
    · rw [ih h]
    · rw [ih h]
    · rfl

/-- However the loop ends, it gives the bus and the scheduler back, with the chip no longer selected. -/
theorem busAfter_recvCalls (h : (recvCalls spi fuel pos count).1 ≠ .running) (lock holders : Int) :
    busAfter ⟨lock + 1, holders + 1, true⟩ (recvCalls spi fuel pos count).2 = ⟨lock, holders, false⟩ := by
  have hend : ∀ selected,
      busAfter ⟨lock + 1, holders + 1, selected⟩ [.release, .releaseBus, .exitCritical] = ⟨lock, holders, false⟩ := by
    intro selected
    simp [busAfter, BusCall.act]
  induction fuel generalizing pos count with
  | zero => exact absurd rfl h
  | succ fuel ih =>
    rw [recvCalls_succ] at h ⊢
    split_ifs at h ⊢ with hcount hbyte hshort hcheck
    · exact hend false
    · exact ih h
    · exact ih h
    · exact ih h
    · exact hend true

/-- With at most `most` replies given up, the loop ends, and so many reads are enough. -/
theorem recvCalls_ends {most : Nat} (hmost : ∀ pos others rejected, Cut spi pos others rejected → rejected ≤ most)
    (hcut : Cut spi pos others rejected) (fuel : Nat) (hfuel : 50000 - others + (most - rejected) < fuel) :
    (recvCalls spi fuel pos others).1 ≠ .running ∧
      readsOf (recvCalls spi fuel pos others).2 ≤ 50000 - others + 3 * (most - rejected) + 3 := by
  induction fuel generalizing pos others rejected with
  | zero => omega
  | succ fuel ih =>
    rw [recvCalls_succ]
    split_ifs with hcount hbyte hshort hcheck
    · refine ⟨by simp, ?_⟩
      rw [readsOf_append, readsOf_replyCalls]
      exact Nat.le_add_left 3 _
    · have hnext := hcut.wrong hcount hbyte hshort hcheck
      have hle := hmost _ _ _ hnext
      obtain ⟨hend, hreads⟩ := ih hnext (by omega)
      refine ⟨hend, ?_⟩
      rw [readsOf_append, readsOf_replyCalls, readsOf_take]
      omega
    · have hnext := hcut.long hcount hbyte (Nat.not_lt.mp hshort)
      have hle := hmost _ _ _ hnext
      obtain ⟨hend, hreads⟩ := ih hnext (by omega)
      refine ⟨hend, ?_⟩
      rw [readsOf_recv, readsOf_recv]
      omega
    · have hnext := hcut.other hcount hbyte
      obtain ⟨hend, hreads⟩ := ih hnext (by omega)
      refine ⟨hend, ?_⟩
      rw [readsOf_recv]
      omega
    · exact ⟨by simp, Nat.zero_le _⟩

/-! ## The buffer -/

/-- All bytes are received into `Rx_data`. -/
def Inside (calls : List BusCall) : Prop := ∀ place data, .recv place data ∈ calls → place + data.length ≤ 1024

@[simp] theorem inside_nil : Inside [] := by
  intro place data h
  cases h

theorem inside_append {calls calls' : List BusCall} : Inside (calls ++ calls') ↔ Inside calls ∧ Inside calls' := by
  simp only [Inside, List.mem_append]
  constructor
  · intro h
    exact ⟨fun place data hcall => h place data (.inl hcall), fun place data hcall => h place data (.inr hcall)⟩
  · rintro ⟨h, h'⟩ place data (hcall | hcall)
    · exact h place data hcall
    · exact h' place data hcall

@[simp] theorem inside_recv (place : Nat) (data : List Byte) (calls : List BusCall) :
    Inside (.recv place data :: calls) ↔ place + data.length ≤ 1024 ∧ Inside calls := by
  simp only [Inside, List.mem_cons]
  constructor
  · intro h
    exact ⟨h place data (.inl rfl), fun place' data' hcall => h place' data' (.inr hcall)⟩
  · rintro ⟨hfits, h⟩ place' data' (hcall | hcall)
    · cases hcall
      exact hfits
    · exact h place' data' hcall

theorem inside_cons_of_ne {call : BusCall} (hne : ∀ place data, call ≠ .recv place data) (calls : List BusCall) :
    Inside (call :: calls) ↔ Inside calls := by
  simp only [Inside, List.mem_cons]
  constructor
  · exact fun h place data hcall => h place data (.inr hcall)
  · rintro h place data (hcall | hcall)
    · exact absurd hcall.symm (hne place data)
    · exact h place data hcall

@[simp] theorem inside_take (calls : List BusCall) : Inside (.take :: calls) ↔ Inside calls := inside_cons_of_ne (by simp) calls

@[simp] theorem inside_release (calls : List BusCall) : Inside (.release :: calls) ↔ Inside calls := inside_cons_of_ne (by simp) calls

@[simp] theorem inside_end : Inside [.release, .releaseBus, .exitCritical] := by simp [Inside]

@[simp] theorem inside_replyCalls_iff (spi : Spi) (pos : Nat) : Inside (replyCalls spi pos) ↔ lenthAt spi pos + 4 ≤ 1024 := by
  rw [replyCalls, inside_recv, inside_recv, inside_recv, inside_release]
  simp only [Spi.length_read, List.length_singleton, inside_nil, and_true]
  omega

/-- The buffer with a reply in it. -/
def rxWith (spi : Spi) (pos : Nat) (rx : Vector Byte 1024) : Vector Byte 1024 :=
  copyAt (copyAt rx 0 (spi.read (pos + 1) 4)) 4 (spi.read (pos + 5) (lenthAt spi pos))

theorem front_head (spi : Spi) (pos : Nat) (rx : Vector Byte 1024) :
    front (copyAt rx 0 (spi.read (pos + 1) 4)) 4 = spi.read (pos + 1) 4 := by
  have hcopy := front_copyAt_zero rx (spi.read (pos + 1) 4) (by simp)
  rwa [Spi.length_read] at hcopy

theorem front_rxWith (hfits : lenthAt spi pos + 4 ≤ 1024) (rx : Vector Byte 1024) :
    front (rxWith spi pos rx) (lenthAt spi pos + 4) = replyAt spi pos := by
  have hcopy := front_copyAt_copyAt rx (spi.read (pos + 1) 4) (spi.read (pos + 5) (lenthAt spi pos)) (by simp; omega)
  rw [Spi.length_read, Spi.length_read, ← spi.read_add (pos + 1) 4, Nat.add_comm 4] at hcopy
  rw [rxWith, hcopy, replyAt, Nat.add_comm 4]

theorem checkedAt_rxWith (hfits : lenthAt spi pos + 4 ≤ 1024) (rx : Vector Byte 1024) :
    (rxWith spi pos rx).getD (lenthAt spi pos + 3) 0 = esamCheck (front (rxWith spi pos rx) (lenthAt spi pos + 3)) ↔
      CheckedAt spi pos := by
  rw [getD_front _ (k := lenthAt spi pos + 4) (0 : Byte) (by omega), front_of_le _ (Nat.le_succ (lenthAt spi pos + 3)),
    front_rxWith hfits, CheckedAt]

theorem recvLoop_succ (spi : Spi) (fuel pos count : Nat) (rx : Vector Byte 1024) :
    recvLoop spi (fuel + 1) pos count rx =
      if count < 50000 then
        if spi.line pos = 0x55 then
          if lenthAt spi pos < 1023 then
            if lenthAt spi pos + 4 ≤ 1024 then
              if CheckedAt spi pos then some (some (lenthAt spi pos + 4), rxWith spi pos rx)
              else recvLoop spi fuel (pos + 5 + lenthAt spi pos) count (rxWith spi pos rx)
            else none
          else recvLoop spi fuel (pos + 5) count (copyAt rx 0 (spi.read (pos + 1) 4))
        else recvLoop spi fuel (pos + 1) (count + 1) (rx.setIfInBounds 0 (spi.line pos))
      else some (none, rx) := by
  have htwo : (copyAt rx 0 (spi.read (pos + 1) 4)).getD 2 0 = spi.line (pos + 3) := by
    rw [getD_front _ (k := 4) (0 : Byte) (by decide), front_head]
    rfl
  have hthree : (copyAt rx 0 (spi.read (pos + 1) 4)).getD 3 0 = spi.line (pos + 4) := by
    rw [getD_front _ (k := 4) (0 : Byte) (by decide), front_head]
    rfl
  rw [recvLoop]
  simp only [htwo, hthree]
  rw [← lenthAt, ← rxWith]
  by_cases hfits : lenthAt spi pos + 4 ≤ 1024
  · simp only [if_pos hfits, checkedAt_rxWith hfits]
  · simp only [if_neg hfits]

/-- The loop on the buffer has ended as the calls say, with the reply in front of the buffer. -/
def EndsAs (loop : Option (Option Nat × Vector Byte 1024)) : ExchangeEnd → Prop
  | .running => loop = none
  | .accepted reply => ∃ rx, loop = some (some reply.length, rx) ∧ front rx reply.length = reply
  | .failed => ∃ rx, loop = some (none, rx)

/-- The loop on the buffer does what the calls say, except that it has no outcome where a byte is received behind `Rx_data`. -/
theorem recvLoop_refines (spi : Spi) (fuel pos count : Nat) (rx : Vector Byte 1024) :
    (Inside (recvCalls spi fuel pos count).2 → EndsAs (recvLoop spi fuel pos count rx) (recvCalls spi fuel pos count).1) ∧
      (¬ Inside (recvCalls spi fuel pos count).2 → recvLoop spi fuel pos count rx = none) := by
  induction fuel generalizing pos count rx with
  | zero => exact ⟨fun _ => rfl, fun _ => rfl⟩
  | succ fuel ih =>
    rw [recvCalls_succ, recvLoop_succ]
    split_ifs with hcount hbyte hshort hcheck hfits hfits
    · refine ⟨fun _ => ⟨_, by rw [length_replyAt], by rw [length_replyAt, front_rxWith hfits]⟩, ?_⟩
      intro hout
      exact absurd (inside_append.mpr ⟨(inside_replyCalls_iff spi pos).mpr hfits, inside_end⟩) hout
    · -- a reply outside of the buffer
      refine ⟨fun hin => ?_, fun _ => rfl⟩
      exact absurd ((inside_replyCalls_iff spi pos).mp (inside_append.mp hin).1) hfits
    · simp only [inside_append, inside_replyCalls_iff, inside_take, hfits, true_and]
      exact ih _ _ _
    · refine ⟨fun hin => ?_, fun _ => rfl⟩
      exact absurd ((inside_replyCalls_iff spi pos).mp (inside_append.mp hin).1) hfits
    · have hhead : 0 + (spi.read (pos + 1) 4).length ≤ 1024 := by simp
      have hfirst : 0 + [spi.line pos].length ≤ 1024 := by simp
      simp only [inside_recv, hhead, hfirst, true_and]
      exact ih _ _ _
    · have hfirst : 0 + [spi.line pos].length ≤ 1024 := by simp
      simp only [inside_recv, hfirst, true_and]
      exact ih _ _ _
    · exact ⟨fun _ => ⟨rx, rfl⟩, fun hout => absurd inside_end hout⟩

/-! ## The exchange -/

theorem esamSendAndRecvCalls_fst (hbus : spi.takeBus = true) (fuel : Nat) (comm : ScmEsamComm) :
    (esamSendAndRecvCalls fuel spi comm).1 = (recvCalls spi fuel 0 0).1 := by rw [esamSendAndRecvCalls, if_pos hbus]

theorem esamSendAndRecvCalls_snd (hbus : spi.takeBus = true) (fuel : Nat) (comm : ScmEsamComm) :
    (esamSendAndRecvCalls fuel spi comm).2 =
      [.enterCritical, .takeBus, .take, .send (front comm.txData comm.dataTxLen), .release, .take] ++ (recvCalls spi fuel 0 0).2 := by
  rw [esamSendAndRecvCalls, if_pos hbus]

theorem esamSendAndRecvCalls_of_no_bus (hbus : ¬ spi.takeBus = true) (fuel : Nat) (comm : ScmEsamComm) :
    esamSendAndRecvCalls fuel spi comm = (.failed, [.enterCritical, .exitCritical]) := if_neg hbus

/-- The exchange on the buffers has ended as the calls say, with the reply in front of the receive buffer. -/
def ReturnsAs (res : Option (RtErr × ScmEsamComm)) : ExchangeEnd → Prop
  | .running => res = none
  | .accepted reply => ∃ comm, res = some (.eok, comm) ∧ comm.dataRxLen = reply.length ∧ front comm.rxData comm.dataRxLen = reply
  | .failed => ∃ comm, res = some (.error, comm) ∧ comm.dataRxLen = 0

theorem EndsAs.returnsAs {comm : ScmEsamComm} (hbus : spi.takeBus = true) {ended : ExchangeEnd}
    (h : EndsAs (recvLoop spi fuel 0 0 comm.rxData) ended) : ReturnsAs (esamSendAndRecv fuel spi comm) ended := by
  rw [esamSendAndRecv, if_pos hbus]
  cases ended with
  | running =>
    rw [show recvLoop spi fuel 0 0 comm.rxData = none from h]
    rfl
  | accepted reply =>
    obtain ⟨rx, hloop, hfront⟩ := h
    rw [hloop]
    exact ⟨_, rfl, rfl, hfront⟩
  | failed =>
    obtain ⟨rx, hloop⟩ := h
    rw [hloop]
    exact ⟨_, rfl, rfl⟩

/-- The exchange on the buffers does what the calls say, except that it has no outcome where a byte is received behind `Rx_data`. -/
theorem esamSendAndRecv_refines (fuel : Nat) (spi : Spi) (comm : ScmEsamComm) :
    (Inside (esamSendAndRecvCalls fuel spi comm).2 →
        ReturnsAs (esamSendAndRecv fuel spi comm) (esamSendAndRecvCalls fuel spi comm).1) ∧
      (¬ Inside (esamSendAndRecvCalls fuel spi comm).2 → esamSendAndRecv fuel spi comm = none) := by
  by_cases hbus : spi.takeBus = true
  · obtain ⟨hends, hout⟩ := recvLoop_refines spi fuel 0 0 comm.rxData
    have hopen : Inside [.enterCritical, .takeBus, .take, .send (front comm.txData comm.dataTxLen), .release, .take] := by simp [Inside]
    rw [esamSendAndRecvCalls_fst hbus, esamSendAndRecvCalls_snd hbus, inside_append]
    refine ⟨fun hin => (hends hin.2).returnsAs hbus, ?_⟩
    intro hnot
    have hloop := hout fun hin => hnot ⟨hopen, hin⟩
    rw [esamSendAndRecv, if_pos hbus, hloop]
  · rw [esamSendAndRecvCalls_of_no_bus hbus, esamSendAndRecv, if_neg hbus]
    exact ⟨fun _ => ⟨_, rfl, rfl⟩, fun hnot => absurd (by simp [Inside]) hnot⟩

end EnergyRouter
