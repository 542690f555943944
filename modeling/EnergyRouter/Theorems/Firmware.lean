import EnergyRouter.Lemmas.Pile
import EnergyRouter.PileSend

/-!
# Firmware for the pile

A package comes in data frames of seven bytes that are put together in `STMFLASH_BUFF` without a look at the room, and its length is
believed. After a package whose check is right nothing is reset, so the pile is not ready for the next one, and the first one
already finds it waiting for another frame.
-/

namespace EnergyRouter

open Buffer Runs

variable {s s' : Pile} {msg : CanMsg}

/-! ## One frame -/

/-- The receiver of data frames as a step. -/
def takeData (s : Pile) (msg : CanMsg) : Option Pile := recDataSendFrame msg s

/-- What a data frame is to the receiver. -/
inductive DataKind
  | first | next | last | unexpected
  deriving DecidableEq, Repr

def dataKind (s : Pile) (msg : CanMsg) : DataKind :=
  if msg.byte 0 = 1 then .first
  else if msg.byte 0 = s.programUpdate.updateMessageNo then
    if s.chgUpdate.frameNum = s.programUpdate.updateMessageNo then .last else .next
  else .unexpected

/-- The bytes copied from the frame. -/
def copyLen (s : Pile) (msg : CanMsg) : Nat :=
  match dataKind s msg with
  | .first => 2
  | .next => 7
  | .last => lastDataLen s
  | .unexpected => 0

/-- The parts of `STMFLASH_BUFF` the receiver uses, by place and length: the copy, and for the last frame the bytes added up and the
two of the check. -/
def flashAccesses (s : Pile) (msg : CanMsg) : List (Nat × Nat) :=
  (s.flashLenth.toNat, copyLen s msg) ::
    if dataKind s msg = .last then [(2, (packageLen s).toNat - 2), ((packageLen s).toNat, 2)] else []

/-- The receiver goes by what the frame is to it. -/
theorem takeData_eq (s : Pile) (msg : CanMsg) :
    takeData s msg =
      match dataKind s msg with
      | .first => recFirstData msg (s.message (msg.byte 0))
      | .next => recNextData msg (s.message (msg.byte 0))
      | .last => recLastData msg (s.message (msg.byte 0))
      | .unexpected => some (s.message (msg.byte 0)) := by
  unfold takeData recDataSendFrame dataKind
  split_ifs <;> rfl

@[simp] theorem informCommunicateCan_flashLenth (sendCmd : CanFrame) (resend : Bool) (s : Pile) :
    (informCommunicateCan sendCmd resend s).flashLenth = s.flashLenth := by
  unfold informCommunicateCan
  split_ifs <;> rfl

theorem dataError_flashLenth (s : Pile) : (dataError s).flashLenth = 0 := by
  unfold dataError
  dsimp only
  split_ifs <;> simp

/-! ## Bounds -/

/-- All bytes that are used lie in `STMFLASH_BUFF`, at most seven are copied, and the frame is taken and leaves a length inside of
it. -/
structure FrameSafe (s : Pile) (msg : CanMsg) : Prop where
  accesses : ∀ a ∈ flashAccesses s msg, ∀ i < a.2, a.1 + i < flashBufLen
  copied : copyLen s msg ≤ 7
  lenth : ∃ s', takeData s msg = some s' ∧ s'.flashLenth.toNat ≤ flashBufLen

/-- What a frame has to find: room for its bytes, and before the last one a length that fits the buffer and what it has received. -/
def FitsFrame (s : Pile) (msg : CanMsg) : Prop :=
  match dataKind s msg with
  | .first => s.flashLenth.toNat ≤ 1024
  | .next => s.flashLenth.toNat ≤ 1019
  | .last => 2 ≤ s.chgUpdate.valDataLen.toNat ∧ s.chgUpdate.valDataLen.toNat ≤ 1026 ∧
      s.flashLenth.toNat ≤ s.chgUpdate.valDataLen.toNat ∧ s.chgUpdate.valDataLen.toNat ≤ s.flashLenth.toNat + 7
  | .unexpected => True

/-- The last frame is said to have the rest of the declared length, which must not be less than what is there. -/
theorem lastDataLen_eq (h : s.flashLenth.toNat ≤ flashBufLen) :
    lastDataLen s = if s.flashLenth.toNat ≤ s.chgUpdate.valDataLen.toNat then s.chgUpdate.valDataLen.toNat - s.flashLenth.toNat
      else s.chgUpdate.valDataLen.toNat + 2 ^ 32 - s.flashLenth.toNat := by
  have hlt := s.chgUpdate.valDataLen.isLt
  have hle : s.flashLenth.toNat ≤ 1026 := h
  rw [lastDataLen, BitVec.toNat_sub, BitVec.toNat_setWidth]
  split_ifs <;> omega

theorem packageLen_eq (s : Pile) :
    (packageLen s).toNat = if 2 ≤ s.chgUpdate.valDataLen.toNat then s.chgUpdate.valDataLen.toNat - 2
      else s.chgUpdate.valDataLen.toNat + 2 ^ 32 - 2 := by
  have hlt := s.chgUpdate.valDataLen.isLt
  have htwo : (2 : BitVec 32).toNat = 2 := rfl
  rw [packageLen, BitVec.toNat_sub, BitVec.toNat_setWidth, htwo]
  split_ifs <;> omega

/-- A part of the buffer lies inside of it when its last byte does. -/
theorem forall_lt_iff {a n : Nat} (hn : 0 < n) : (∀ i < n, a + i < flashBufLen) ↔ a + n ≤ flashBufLen := by
  constructor
  · intro h
    have := h (n - 1) (by omega)
    omega
  · intro h i hi
    omega

theorem recFirstData_lenth (hroom : s.flashLenth.toNat + 2 ≤ flashBufLen) :
    ∃ s', recFirstData msg s = some s' ∧ s'.flashLenth = s.flashLenth + 2 := by
  unfold recFirstData writeFlash
  rw [if_pos (by simpa using hroom)]
  exact ⟨_, rfl, rfl⟩

theorem recNextData_lenth (hroom : s.flashLenth.toNat + 7 ≤ flashBufLen) :
    ∃ s', recNextData msg s = some s' ∧ s'.flashLenth = s.flashLenth + 7 := by
  unfold recNextData writeFlash
  rw [if_pos (by simpa using hroom)]
  exact ⟨_, rfl, rfl⟩

/-- The last frame leaves the length of the package, or nothing when its check fails. -/
theorem recLastData_lenth (msg : CanMsg) (hlast : lastDataLen s ≤ 7) (hroom : s.flashLenth.toNat + lastDataLen s ≤ flashBufLen)
    (hpackage : (packageLen s).toNat + 1 < flashBufLen) :
    ∃ s', recLastData msg s = some s' ∧ s'.flashLenth.toNat ≤ flashBufLen := by
  obtain ⟨s', hs', -⟩ := (recLastData_outcome msg s).returned ⟨hlast, hroom, hpackage⟩
  obtain ⟨flashBuff, -, rfl⟩ := recLastData_eq_some hs'
  refine ⟨_, hs', ?_⟩
  split_ifs
  · show (packageLen s).toNat ≤ _
    omega
  · rw [dataError_flashLenth]
    exact Nat.zero_le _

theorem toNat_add_of_le {a : BitVec 32} {n : Nat} (ha : a.toNat ≤ flashBufLen) (hn : n ≤ 7) :
    (a + BitVec.ofNat 32 n).toNat = a.toNat + n := by
  have hle : a.toNat ≤ 1026 := ha
  rw [BitVec.toNat_add, BitVec.toNat_ofNat]
  omega

/-- A frame that only stores its bytes is safe when there is room for them. -/
theorem frameSafe_of_copy (h : s.flashLenth.toNat ≤ flashBufLen) (hkind : dataKind s msg ≠ .last) {n : Nat} (hcopy : copyLen s msg = n)
    (hpos : 0 < n) (hle : n ≤ 7)
    (htaken : s.flashLenth.toNat + n ≤ flashBufLen → ∃ s', takeData s msg = some s' ∧ s'.flashLenth = s.flashLenth + BitVec.ofNat 32 n) :
    FrameSafe s msg ↔ s.flashLenth.toNat + n ≤ flashBufLen := by
  constructor
  · intro hsafe
    have hroom := hsafe.accesses _ List.mem_cons_self
    rw [hcopy] at hroom
    exact (forall_lt_iff hpos).mp hroom
  · intro hroom
    obtain ⟨s', hs', hlenth⟩ := htaken hroom
    refine ⟨?_, by omega, s', hs', ?_⟩
    · intro a ha
      rw [flashAccesses, hcopy, if_neg hkind, List.mem_singleton] at ha
      subst ha
      exact (forall_lt_iff hpos).mpr hroom
    · rw [hlenth, toNat_add_of_le h hle]
      exact hroom

/-- A frame is safe exactly when it finds what it needs. -/
theorem frameSafe_iff (h : s.flashLenth.toNat ≤ flashBufLen) : FrameSafe s msg ↔ FitsFrame s msg := by
  have hsize : flashBufLen = 1026 := rfl
  have htake := takeData_eq s msg
  unfold FitsFrame
  cases hkind : dataKind s msg with
  | first =>
    rw [hkind] at htake
    rw [frameSafe_of_copy h (by simp [hkind]) (n := 2) (by rw [copyLen, hkind]) (by decide) (by decide)
      fun hroom => htake ▸ recFirstData_lenth (s := s.message (msg.byte 0)) hroom]
    simp only
    omega
  | next =>
    rw [hkind] at htake
    rw [frameSafe_of_copy h (by simp [hkind]) (n := 7) (by rw [copyLen, hkind]) (by decide) (by decide)
      fun hroom => htake ▸ recNextData_lenth (s := s.message (msg.byte 0)) hroom]
    simp only
    omega
  | last =>
    have hcopy : copyLen s msg = lastDataLen s := by rw [copyLen, hkind]
    have hdata := lastDataLen_eq h
    have hpackage := packageLen_eq s
    have hlt := s.chgUpdate.valDataLen.isLt
    have hparts : flashAccesses s msg =
        [(s.flashLenth.toNat, lastDataLen s), (2, (packageLen s).toNat - 2), ((packageLen s).toNat, 2)] := by
      rw [flashAccesses, hcopy, if_pos hkind]
    rw [hkind] at htake
    constructor
    · intro hsafe
      have hcopied := hsafe.copied
      have hcheck := (forall_lt_iff (Nat.succ_pos 1)).mp (hsafe.accesses ((packageLen s).toNat, 2) (by simp [hparts]))
      simp only at hcheck ⊢
      rw [hcopy] at hcopied
      split_ifs at hdata hpackage <;> omega
    · rintro ⟨hlow, hhigh, hbegun, hrest⟩
      rw [if_pos hbegun] at hdata
      rw [if_pos hlow] at hpackage
      obtain ⟨s', hs', hlenth⟩ := recLastData_lenth msg (s := s.message (msg.byte 0))
        (show lastDataLen s ≤ 7 by omega) (show s.flashLenth.toNat + lastDataLen s ≤ flashBufLen by omega)
        (show (packageLen s).toNat + 1 < flashBufLen by omega)
      refine ⟨?_, by omega, s', htake.trans hs', hlenth⟩
      intro a ha i hi
      rw [hparts] at ha
      simp only [List.mem_cons, List.not_mem_nil, or_false] at ha
      rcases ha with rfl | rfl | rfl <;> simp only at hi ⊢ <;> omega
  | unexpected =>
    have hcopy : copyLen s msg = 0 := by rw [copyLen, hkind]
    rw [hkind] at htake
    refine ⟨fun _ => trivial, fun _ => ⟨?_, by omega, _, htake, h⟩⟩
    intro a ha i hi
    simp only [flashAccesses, hkind, hcopy, reduceCtorEq, if_false, List.mem_singleton] at ha
    subst ha
    exact absurd hi (Nat.not_lt_zero i)

/-- Over every sequence of data frames: all of them are safe exactly when each finds the room and the length it needs. -/
theorem firmware_in_bounds_iff (s : Pile) (hs : s.flashLenth.toNat ≤ flashBufLen) (msgs : List CanMsg) :
    Meets takeData FrameSafe s msgs ↔ Meets takeData FitsFrame s msgs := by
  refine meets_congr (fun (s : Pile) _ (h : s.flashLenth.toNat ≤ flashBufLen) => frameSafe_iff h) ?_ hs msgs
  intro s msg s' h hfits htake
  obtain ⟨s'', htake', hlenth⟩ := ((frameSafe_iff h).mpr hfits).lenth
  cases htake.symm.trans htake'
  exact hlenth

/-- A first frame that declares two frames, a length (low byte first) and two bytes. -/
def firstOfTwo (low high : Byte) : CanMsg := can1SendMsg (frameId 0x74) [1, 2, low, high, 0, 0, 10, 20]

theorem first_frame_in_bounds :
    initPile.flashLenth.toNat ≤ flashBufLen ∧ Meets takeData FrameSafe initPile [firstOfTwo 4 0] := by
  refine ⟨Nat.zero_le _, ?_⟩
  rw [firmware_in_bounds_iff initPile (Nat.zero_le _)]
  exact ⟨Nat.zero_le _, fun _ _ => trivial⟩

/-- Two first frames that declare 8192 bytes, and a second one: 8188 bytes are to be copied from it. -/
theorem declared_length_out_of_bounds :
    ¬ Meets takeData FrameSafe initPile [firstOfTwo 0x00 0x20, firstOfTwo 0x00 0x20, can1SendMsg (frameId 0x74) [2]] := by
  intro h
  have hlast : copyLen _ (can1SendMsg (frameId 0x74) [2]) ≤ 7 := ((h.2 _ rfl).2 _ rfl).1.copied
  exact absurd hlast (by decide)

/-! ## Packages -/

/-- A package that fits the buffer with its check: its bytes, the device it is for, and what fills up its last frame. -/
structure Package where
  payload : List Byte
  chargIdent : Byte
  deviceType : Byte
  filling : List Byte
  enough : 2 ≤ payload.length
  fits : payload.length + 2 ≤ flashBufLen
  whole : (payload.length + filling.length) % 7 = 0
  filling_length : filling.length < 7

namespace Package

variable (p : Package) {k : Nat}

/-- The frames behind the first one, without the last. -/
def between : Nat := (p.payload.length + p.filling.length) / 7 - 1

theorem between_eq : 7 * (p.between + 1) = p.payload.length + p.filling.length := by
  have henough := p.enough
  have hwhole := p.whole
  rw [between]
  omega

theorem between_lt : p.between < 147 := by
  have hfits : p.payload.length + 2 ≤ 1026 := p.fits
  have heq := p.between_eq
  have hfilling := p.filling_length
  omega

def frameNum : Byte := BitVec.ofNat 8 (p.between + 2)

/-- The declared length counts the check. -/
def valDataLen : BitVec 16 := BitVec.ofNat 16 (p.payload.length + 2)

/-- What the first frame says of the package. -/
def head : List Byte := p.frameNum :: lowHigh p.valDataLen ++ [p.chargIdent, p.deviceType]

/-- The sum of everything in front of it. -/
def check : BitVec 16 := addBytes 0 (p.head ++ p.payload)

/-- The bytes that are cut into frames. -/
def stream : List Byte := p.payload ++ lowHigh p.check ++ p.filling

theorem stream_length : p.stream.length = 2 + 7 * (p.between + 1) := by
  have heq := p.between_eq
  simp [stream, lowHigh]
  omega

/-- The first frame has two bytes of the package. -/
def first : CanMsg := can1SendMsg (frameId 0x74) (1 :: p.head ++ p.stream.take 2)

/-- The frames behind it have seven. -/
def frame (k : Nat) : CanMsg := can1SendMsg (frameId 0x74) (BitVec.ofNat 8 (k + 2) :: (p.stream.drop (2 + 7 * k)).take 7)

/-- The first frame and `k` further ones. -/
def begun (k : Nat) : List CanMsg := p.first :: (List.range k).map p.frame

/-- All frames of the package. -/
def frames : List CanMsg := p.begun p.between ++ [p.frame p.between]

theorem begun_succ (k : Nat) : p.begun (k + 1) = p.begun k ++ [p.frame k] := by
  simp [begun, List.range_succ]

/-! ## What the frames hold -/

theorem first_toList : p.first.data.toList = 1 :: p.head ++ p.stream.take 2 := by
  have hlen : (1 :: p.head ++ p.stream.take 2).length = 8 := by
    have hstream := p.stream_length
    simp [head, lowHigh]
    omega
  rw [first, can1SendMsg_toList _ (by omega), hlen, Nat.sub_self, List.replicate_zero, List.append_nil]

theorem frame_toList (hk : k ≤ p.between) :
    (p.frame k).data.toList = BitVec.ofNat 8 (k + 2) :: (p.stream.drop (2 + 7 * k)).take 7 := by
  have hlen : (BitVec.ofNat 8 (k + 2) :: (p.stream.drop (2 + 7 * k)).take 7).length = 8 := by
    have hstream := p.stream_length
    simp
    omega
  rw [frame, can1SendMsg_toList _ (by omega), hlen, Nat.sub_self, List.replicate_zero, List.append_nil]

end Package

theorem CanMsg.byte_eq (msg : CanMsg) {l : List Byte} (h : msg.data.toList = l) (i : Nat) : msg.byte i = l.getD i 0 := by
  rw [← h, CanMsg.byte, List.getD_eq_getElem?_getD, Vector.getElem?_toList, Vector.getD, Array.getD_eq_getD_getElem?,
    Vector.getElem?_toArray]

/-- Frames behind the first one do not have its number. -/
theorem Package.frame_number (p : Package) {k : Nat} (hk : k ≤ p.between) :
    (p.frame k).byte 0 = BitVec.ofNat 8 (k + 2) ∧ (p.frame k).byte 0 ≠ 1 := by
  have hlt := p.between_lt
  have hbyte : (p.frame k).byte 0 = BitVec.ofNat 8 (k + 2) := (p.frame k).byte_eq (p.frame_toList hk) 0
  refine ⟨hbyte, ?_⟩
  rw [hbyte]
  intro hone
  have htoNat := congrArg BitVec.toNat hone
  rw [BitVec.toNat_ofNat] at htoNat
  change (k + 2) % 256 = 1 at htoNat
  omega

/-! ## A package whose check is right -/

/-- The pile waits for the first frame of a package. -/
def Ready (s : Pile) : Prop := s.flashLenth = 0 ∧ s.programUpdate.updateMessageNo = 1

/-- The frames of a package are taken, the last one as the last one, and the check that comes with it is right. -/
def Arrives (p : Package) (s s' : Pile) : Prop :=
  ∃ s₁, run takeData s (p.begun p.between) = some s₁ ∧ dataKind s₁ (p.frame p.between) = .last ∧
    ¬ CheckFails (p.frame p.between) s₁ ∧ takeData s₁ (p.frame p.between) = some s'

theorem Package.valDataLen_toNat (p : Package) : p.valDataLen.toNat = p.payload.length + 2 := by
  have hfits : p.payload.length + 2 ≤ 1026 := p.fits
  rw [valDataLen, BitVec.toNat_ofNat]
  omega

@[simp] theorem informCommunicateCan_chgUpdate (sendCmd : CanFrame) (resend : Bool) (s : Pile) :
    (informCommunicateCan sendCmd resend s).chgUpdate = s.chgUpdate := by
  unfold informCommunicateCan
  split_ifs <;> rfl

theorem dataError_valDataLen (s : Pile) : (dataError s).chgUpdate.valDataLen = s.chgUpdate.valDataLen := by
  unfold dataError
  dsimp only
  split_ifs <;> simp

theorem takeData_valDataLen (hnumber : msg.byte 0 ≠ 1) (h : takeData s msg = some s') :
    s'.chgUpdate.valDataLen = s.chgUpdate.valDataLen := by
  rw [takeData_eq] at h
  cases hkind : dataKind s msg with
  | first =>
    unfold dataKind at hkind
    rw [if_neg hnumber] at hkind
    split_ifs at hkind
  | next =>
    rw [hkind] at h
    obtain ⟨flashBuff, -, h⟩ := Option.bind_eq_some_iff.mp h
    cases h
    rfl
  | last =>
    rw [hkind] at h
    obtain ⟨flashBuff, -, rfl⟩ := recLastData_eq_some h
    split_ifs
    · rfl
    · rw [dataError_valDataLen]
      rfl
  | unexpected =>
    rw [hkind] at h
    cases h
    rfl

/-- While a package comes in, its length is the one declared. -/
theorem Package.begun_valDataLen (p : Package) {k : Nat} (hk : k ≤ p.between) (h : run takeData s (p.begun k) = some s') :
    s'.chgUpdate.valDataLen = p.valDataLen := by
  induction k generalizing s' with
  | zero =>
    obtain ⟨s₁, hfirst, hnil⟩ := Option.bind_eq_some_iff.mp h
    cases hnil
    have hbyte := p.first.byte_eq p.first_toList
    have hkind : dataKind s p.first = .first := if_pos (hbyte 0)
    rw [takeData_eq, hkind] at hfirst
    obtain ⟨flashBuff, -, hfirst⟩ := Option.bind_eq_some_iff.mp hfirst
    cases hfirst
    show p.first.byte 3 ++ p.first.byte 2 = p.valDataLen
    rw [hbyte, hbyte]
    exact high_append_low p.valDataLen
  | succ k ih =>
    rw [p.begun_succ, run_append] at h
    obtain ⟨s₁, hs₁, h⟩ := Option.bind_eq_some_iff.mp h
    obtain ⟨s₂, hs₂, hnil⟩ := Option.bind_eq_some_iff.mp h
    cases hnil
    rw [takeData_valDataLen (p.frame_number (by omega)).2 hs₂, ih (by omega) hs₁]

/-- A package that has arrived is still there: the buffer has its length. -/
theorem Arrives.flashLenth {p : Package} (h : Arrives p s s') : s'.flashLenth.toNat = p.payload.length := by
  obtain ⟨s₁, hbegun, hkind, hcheck, hlast⟩ := h
  have hlen := p.begun_valDataLen (Nat.le_refl _) hbegun
  rw [takeData_eq, hkind] at hlast
  obtain ⟨flashBuff, hwrite, rfl⟩ := recLastData_eq_some hlast
  unfold writeFlash at hwrite
  split_ifs at hwrite
  cases hwrite
  -- The check does not look at the noted number.
  have hcheck : ¬ CheckFails (p.frame p.between) (s₁.message ((p.frame p.between).byte 0)) := hcheck
  rw [if_pos (not_not.mp hcheck)]
  show (packageLen s₁).toNat = _
  rw [packageLen_eq, hlen, p.valDataLen_toNat, if_pos (by omega), Nat.add_sub_cancel]

/-- What is sent to the pile: packages, and between them frames of any kind. -/
inductive Transmission
  | package (p : Package)
  | disturbed (frames : List CanMsg)

/-- Every package arrives and leaves the pile ready for the next one, and the sum over all packages is that of those that have
arrived. -/
def Reassembled : BitVec 32 → Pile → List Transmission → Prop
  | _, _, [] => True
  | sum, s, .package p :: ts => ∃ s', Arrives p s s' ∧ Ready s' ∧ s'.programUpdate.additionAll = addBytes sum p.payload ∧
      Reassembled (addBytes sum p.payload) s' ts
  | sum, s, .disturbed frames :: ts => ∃ s', run takeData s frames = some s' ∧ Reassembled sum s' ts

/-- Whatever state the pile is in, no package is received as it should be: one that arrives leaves its length behind. -/
theorem firmware_never_reassembled (sum : BitVec 32) (s : Pile) (ts : List Transmission) (h : ∃ p, .package p ∈ ts) :
    ¬ Reassembled sum s ts := by
  obtain ⟨p, hp⟩ := h
  induction ts generalizing sum s with
  | nil => cases hp
  | cons t ts ih =>
    cases t with
    | package q =>
      rintro ⟨s', harrives, hready, -⟩
      have hlenth := harrives.flashLenth
      have henough := q.enough
      rw [hready.1] at hlenth
      change 0 = q.payload.length at hlenth
      omega
    | disturbed frames =>
      rintro ⟨s', -, hrest⟩
      exact ih _ _ (List.mem_of_ne_of_mem (by simp) hp) hrest

/-- Four bytes in two frames. -/
def smallPackage : Package := ⟨[10, 20, 30, 40], 0, 0, [0, 0, 0], by decide, by decide, by decide, by decide⟩

theorem small_package_not_reassembled :
    (∃ p, Transmission.package p ∈ [.package smallPackage, .disturbed smallPackage.frames]) ∧
      ¬ Reassembled 0 initPile [.package smallPackage, .disturbed smallPackage.frames] :=
  ⟨⟨smallPackage, List.mem_cons_self⟩, firmware_never_reassembled 0 initPile _ ⟨smallPackage, List.mem_cons_self⟩⟩

/-- The pile as it should be before a package. -/
def readyPile : Pile := { initPile with programUpdate := { initPile.programUpdate with updateMessageNo := 1 } }

/-- From the first state of the pile the second frame of the package is not expected, and no check is made. From a ready state its
check is right, and the pile is not ready again. -/
theorem small_package_lost :
    (run takeData initPile (smallPackage.begun smallPackage.between)).map (dataKind · (smallPackage.frame smallPackage.between)) =
        some .unexpected ∧
      ¬ Reassembled 0 initPile [.package smallPackage] ∧
      Ready readyPile ∧ ∃ s', Arrives smallPackage readyPile s' ∧ s'.flashLenth = 4 := by
  have hlost : (run takeData initPile (smallPackage.begun smallPackage.between)).map
      (dataKind · (smallPackage.frame smallPackage.between)) = some .unexpected := by rfl
  refine ⟨hlost, ?_, ⟨rfl, rfl⟩, ?_⟩
  · rintro ⟨s', ⟨s₁, hbegun, hkind, -⟩, -⟩
    rw [hbegun, Option.map_some, hkind] at hlost
    cases hlost
  · have harrives : (run takeData readyPile (smallPackage.begun smallPackage.between)).map (fun s₁ =>
        (dataKind s₁ (smallPackage.frame smallPackage.between), decide (CheckFails (smallPackage.frame smallPackage.between) s₁),
          (takeData s₁ (smallPackage.frame smallPackage.between)).map Pile.flashLenth)) = some (.last, false, some 4) := by
      decide +kernel
    obtain ⟨s₁, hbegun, hlast⟩ := Option.map_eq_some_iff.mp harrives
    simp only [Prod.mk.injEq, decide_eq_false_iff_not] at hlast
    obtain ⟨hkind, hcheck, htake⟩ := hlast
    obtain ⟨s', hs', hlenth⟩ := Option.map_eq_some_iff.mp htake
    exact ⟨s', ⟨s₁, hbegun, hkind, hcheck, hs'⟩, hlenth⟩

end EnergyRouter
