import EnergyRouter.Lemmas.EsamBus

/-!
# Receiving from the security chip

The receive loop adds one to the low length byte before it joins it to the high one, and its limit lets through two lengths that do
not fit. Replies given up can go on for ever. Whenever it ends, the bus is released and the scheduler unlocked.
-/

namespace EnergyRouter

open Buffer

/-! ## The length of a reply -/

/-- The bytes are a reply of the length it names, and the last of them is the check of the others. -/
structure ReplyFramed (reply : List Byte) : Prop where
  length : reply.length = 256 * (reply.getD 2 0).toNat + (reply.getD 3 0).toNat + 5
  check : reply.getLast? = some (esamCheck reply.dropLast)

/-- Whenever the exchange accepts a reply, it has the length it names and its last byte is the check; and no byte is received outside of
`Rx_data`. -/
structure ReceivesSoundly (spi : Spi) (comm : ScmEsamComm) : Prop where
  framed : ∀ fuel reply, (esamSendAndRecvCalls fuel spi comm).1 = .accepted reply → ReplyFramed reply
  inside : ∀ fuel, Inside (esamSendAndRecvCalls fuel spi comm).2

/-- The length bytes name neither of the two lengths that do not fit, nor, if the check is right, one of the two that are read too
short. -/
structure LengthAllowed (spi : Spi) (pos : Nat) : Prop where
  fits : ¬ ((spi.line (pos + 3)).toNat = 3 ∧ ((spi.line (pos + 4)).toNat = 252 ∨ (spi.line (pos + 4)).toNat = 253))
  full : CheckedAt spi pos → ¬ ((spi.line (pos + 4)).toNat = 255 ∧ ((spi.line (pos + 3)).toNat = 1 ∨ (spi.line (pos + 3)).toNat = 3))

/-- The lengths the loop reads a reply for: which of them fit, and which of them are those named. -/
theorem replyLenth_iff {hi lo : Byte} (h : replyLenth hi lo < 1023) :
    (replyLenth hi lo + 4 ≤ 1024 ↔ ¬ (hi.toNat = 3 ∧ (lo.toNat = 252 ∨ lo.toNat = 253))) ∧
      (replyLenth hi lo + 4 = 256 * hi.toNat + lo.toNat + 5 ↔ ¬ (lo.toNat = 255 ∧ (hi.toNat = 1 ∨ hi.toNat = 3))) := by
  have hhigh : hi.toNat * 256 ≤ replyLenth hi lo := by
    rw [replyLenth, ← Nat.shiftLeft_eq _ 8]
    exact Nat.left_le_or
  by_cases hfull : lo.toNat = 255
  · -- the carry of the low byte meets the lowest bit of the high one
    have hjoined : ∀ n < 4, n <<< 8 ||| 256 = n * 256 + (if n = 1 ∨ n = 3 then 0 else 256) := by decide
    have hlenth : replyLenth hi lo = hi.toNat * 256 + (if hi.toNat = 1 ∨ hi.toNat = 3 then 0 else 256) := by
      rw [replyLenth, hfull]
      exact hjoined _ (by omega)
    rw [hlenth] at h ⊢
    split_ifs at h ⊢ <;> omega
  · rw [replyLenth_of_ne hfull] at h ⊢
    omega

theorem replyLenth_lt {hi lo : Byte}
    (h : hi.toNat = 3 ∧ (lo.toNat = 252 ∨ lo.toNat = 253) ∨ lo.toNat = 255 ∧ (hi.toNat = 1 ∨ hi.toNat = 3)) :
    replyLenth hi lo < 1023 := by
  rw [replyLenth]
  rcases h with ⟨hhi, hlo | hlo⟩ | ⟨hlo, hhi | hhi⟩ <;> rw [hhi, hlo] <;> decide

/-- A reply whose check is right is framed when its length is the one named. -/
theorem CheckedAt.framed_iff {spi : Spi} {pos : Nat} (h : CheckedAt spi pos) :
    ReplyFramed (replyAt spi pos) ↔
      lenthAt spi pos + 4 = 256 * (spi.line (pos + 3)).toNat + (spi.line (pos + 4)).toNat + 5 := by
  have hlength := length_replyAt spi pos
  have hbyte : ∀ i < lenthAt spi pos + 4, (replyAt spi pos).getD i 0 = spi.line (pos + 1 + i) := by
    intro i hi
    simp [replyAt, Spi.read, List.getD_eq_getElem?_getD, List.getElem?_range (show i < 4 + lenthAt spi pos by omega)]
  have hlast : (replyAt spi pos).getLast? = some (esamCheck (replyAt spi pos).dropLast) := by
    rw [List.dropLast_eq_take, hlength, List.getLast?_eq_getElem?, hlength, Nat.add_sub_cancel_right _ 1, ← h,
      List.getD_eq_getElem?_getD, List.getElem?_eq_getElem (by omega), Option.getD_some]
  constructor
  · intro hframed
    rw [← hlength, hframed.length, hbyte 2 (by omega), hbyte 3 (by omega)]
  · intro hlenth
    refine ⟨?_, hlast⟩
    rw [hlength, hbyte 2 (by omega), hbyte 3 (by omega)]
    exact hlenth

/-- From every place where the loop looks for a start byte it stays inside, and accepts framed replies only. -/
theorem recvCalls_sound {spi : Spi}
    (hallowed : ∀ pos others rejected, Cut spi pos others rejected → others < 50000 → spi.line pos = 0x55 → LengthAllowed spi pos)
    (fuel : Nat) {pos others rejected : Nat} (hcut : Cut spi pos others rejected) :
    Inside (recvCalls spi fuel pos others).2 ∧ ∀ reply, (recvCalls spi fuel pos others).1 = .accepted reply → ReplyFramed reply := by
  induction fuel generalizing pos others rejected with
  | zero => exact ⟨inside_nil, by simp [recvCalls]⟩
  | succ fuel ih =>
    rw [recvCalls_succ]
    split_ifs with hcount hbyte hshort hcheck
    · obtain ⟨hfits, hfull⟩ := hallowed pos others rejected hcut hcount hbyte
      obtain ⟨hinside, hnamed⟩ := replyLenth_iff hshort
      refine ⟨inside_append.mpr ⟨(inside_replyCalls_iff spi pos).mpr (hinside.mpr hfits), inside_end⟩, ?_⟩
      intro reply hreply
      cases hreply
      exact hcheck.framed_iff.mpr (hnamed.mpr (hfull hcheck))
    · obtain ⟨hfits, -⟩ := hallowed pos others rejected hcut hcount hbyte
      obtain ⟨hinside, -⟩ := replyLenth_iff hshort
      obtain ⟨hlater, hframed⟩ := ih (hcut.wrong hcount hbyte hshort hcheck)
      refine ⟨inside_append.mpr ⟨(inside_replyCalls_iff spi pos).mpr (hinside.mpr hfits), ?_⟩, hframed⟩
      exact (inside_take _).mpr hlater
    · obtain ⟨hlater, hframed⟩ := ih (hcut.long hcount hbyte (Nat.not_lt.mp hshort))
      exact ⟨by simpa using hlater, hframed⟩
    · obtain ⟨hlater, hframed⟩ := ih (hcut.other hcount hbyte)
      exact ⟨by simpa using hlater, hframed⟩
    · exact ⟨inside_end, by simp⟩

/-- What a turn at the place of a start byte does, when the loop comes to it. -/
theorem recvCalls_one {spi : Spi} {pos count : Nat} (hcount : count < 50000) (hbyte : spi.line pos = 0x55)
    (hshort : lenthAt spi pos < 1023) :
    (∃ later, (recvCalls spi 1 pos count).2 = replyCalls spi pos ++ later) ∧
      (CheckedAt spi pos → (recvCalls spi 1 pos count).1 = .accepted (replyAt spi pos)) := by
  rw [recvCalls_succ, if_pos hcount, if_pos hbyte, if_pos hshort]
  split_ifs with hcheck
  · exact ⟨⟨_, rfl⟩, fun _ => rfl⟩
  · exact ⟨⟨_, rfl⟩, fun hchecked => absurd hchecked hcheck⟩

/-- For every line: replies are accepted with the length they name, with their check in the last byte and inside of `Rx_data`, exactly
when the length bytes of every reply the loop comes to are allowed. -/
theorem reply_length_iff (spi : Spi) (comm : ScmEsamComm) :
    ReceivesSoundly spi comm ↔
      (spi.takeBus = true → ∀ pos others rejected, Cut spi pos others rejected → others < 50000 → spi.line pos = 0x55 →
        LengthAllowed spi pos) := by
  constructor
  · rintro ⟨hframed, hinside⟩ hbus pos others rejected hcut hcount hbyte
    obtain ⟨before, -, hbefore⟩ := hcut.recvCalls
    -- the loop has come to the place after as many turns as the cut has pieces
    have hframed := hframed (1 + others + rejected)
    have hinside := hinside (1 + others + rejected)
    rw [esamSendAndRecvCalls_fst hbus, hbefore 1] at hframed
    rw [esamSendAndRecvCalls_snd hbus, hbefore 1] at hinside
    have hone : lenthAt spi pos < 1023 → lenthAt spi pos + 4 ≤ 1024 ∧ (CheckedAt spi pos → ReplyFramed (replyAt spi pos)) := by
      intro hshort
      obtain ⟨⟨later, hcalls⟩, haccepted⟩ := recvCalls_one hcount hbyte hshort
      rw [hcalls, inside_append, inside_append, inside_append, inside_replyCalls_iff] at hinside
      exact ⟨hinside.2.2.1, fun hcheck => hframed _ (haccepted hcheck)⟩
    constructor
    · intro hbad
      have hshort : lenthAt spi pos < 1023 := replyLenth_lt (.inl hbad)
      exact (replyLenth_iff hshort).1.mp (hone hshort).1 hbad
    · intro hcheck hbad
      have hshort : lenthAt spi pos < 1023 := replyLenth_lt (.inr hbad)
      exact (replyLenth_iff hshort).2.mp (hcheck.framed_iff.mp ((hone hshort).2 hcheck)) hbad
  · intro hallowed
    by_cases hbus : spi.takeBus = true
    · have hsound := fun fuel => recvCalls_sound (hallowed hbus) fuel .start
      constructor
      · intro fuel reply hreply
        rw [esamSendAndRecvCalls_fst hbus] at hreply
        exact (hsound fuel).2 reply hreply
      · intro fuel
        rw [esamSendAndRecvCalls_snd hbus, inside_append]
        exact ⟨by simp [Inside], (hsound fuel).1⟩
    · constructor
      · intro fuel reply hreply
        rw [esamSendAndRecvCalls_of_no_bus hbus] at hreply
        cases hreply
      · intro fuel
        rw [esamSendAndRecvCalls_of_no_bus hbus]
        simp [Inside]

/-- A line that starts with a reply: its first four bytes, and the last of so many zeros behind them. -/
def replyLine (head : List Byte) (zeros : Nat) (last : Byte) : Spi where
  takeBus := true
  line i := if i = 0 then 0x55 else if i ≤ 4 then head.getD (i - 1) 0 else if i = zeros + 5 then last else 0

/-- A reply of 511 bytes behind its length, and one of 1020. -/
def longReply : Spi := replyLine [0x90, 0x00, 0x01, 0xff] 255 0x91

def longestReply : Spi := replyLine [0x90, 0x00, 0x03, 0xfc] 1020 0x91

/-- Of the first one 260 bytes are accepted, instead of 516; the second one is received behind the end of `Rx_data`. -/
theorem reply_cut_short :
    (esamSendAndRecvCalls 1 longReply zeroEsam.comm).1 = .accepted (replyAt longReply 0) ∧ (replyAt longReply 0).length = 260 ∧
      ¬ ReceivesSoundly longReply zeroEsam.comm ∧ ¬ ReceivesSoundly longestReply zeroEsam.comm := by
  have hcheck : CheckedAt longReply 0 := by decide +kernel
  have haccepted : (esamSendAndRecvCalls 1 longReply zeroEsam.comm).1 = .accepted (replyAt longReply 0) := by
    have hone : CheckedAt longReply 0 → (recvCalls longReply 1 0 0).1 = .accepted (replyAt longReply 0) :=
      (recvCalls_one (by decide) rfl (by decide)).2
    rw [esamSendAndRecvCalls_fst rfl, hone hcheck]
  refine ⟨haccepted, by rw [length_replyAt]; rfl, ?_, ?_⟩
  · rintro ⟨hframed, -⟩
    exact absurd (hcheck.framed_iff.mp (hframed 1 _ haccepted)) (by decide)
  · rintro ⟨-, hinside⟩
    have hone : ∃ later, (recvCalls longestReply 1 0 0).2 = replyCalls longestReply 0 ++ later :=
      (recvCalls_one (by decide) rfl (by decide)).1
    obtain ⟨later, hcalls⟩ := hone
    have hinside := hinside 1
    rw [esamSendAndRecvCalls_snd rfl, hcalls, inside_append, inside_append, inside_replyCalls_iff] at hinside
    exact absurd hinside.2.1 (by decide)

/-! ## The end of an exchange -/

/-- The exchange ends, with at most so many reads, and leaves the lock of the scheduler and the bus as they were. -/
def ExchangeEnds (bound : Nat) (spi : Spi) (comm : ScmEsamComm) : Prop :=
  ∃ fuel, (esamSendAndRecvCalls fuel spi comm).1 ≠ .running ∧ readsOf (esamSendAndRecvCalls fuel spi comm).2 ≤ bound ∧
    ∀ s : BusState, s.selected = false → busAfter s (esamSendAndRecvCalls fuel spi comm).2 = s

/-- However an exchange ends, the scheduler is unlocked, the bus released and the chip not selected. -/
theorem busAfter_esamSendAndRecvCalls {fuel : Nat} {spi : Spi} {comm : ScmEsamComm}
    (h : (esamSendAndRecvCalls fuel spi comm).1 ≠ .running) {s : BusState} (hs : s.selected = false) :
    busAfter s (esamSendAndRecvCalls fuel spi comm).2 = s := by
  obtain ⟨lock, holders, selected⟩ := s
  cases hs
  by_cases hbus : spi.takeBus = true
  · rw [esamSendAndRecvCalls_fst hbus] at h
    rw [esamSendAndRecvCalls_snd hbus]
    exact busAfter_recvCalls h lock holders
  · rw [esamSendAndRecvCalls_of_no_bus hbus]
    simp [busAfter, BusCall.act]

/-- For every class of lines: there is a number of reads after which the exchange has ended on all of them, with the bus released and
the scheduler unlocked, exactly when there is a number of replies that are given up at most on any of them. -/
theorem exchange_ends_iff (lines : Set Spi) (comm : ScmEsamComm) :
    (∃ bound, ∀ spi ∈ lines, ExchangeEnds bound spi comm) ↔
      ∃ most, ∀ spi ∈ lines, spi.takeBus = true → ∀ pos others rejected, Cut spi pos others rejected → rejected ≤ most := by
  constructor
  · rintro ⟨bound, hends⟩
    refine ⟨bound, ?_⟩
    intro spi hspi hbus pos others rejected hcut
    obtain ⟨fuel, hend, hreads, -⟩ := hends spi hspi
    obtain ⟨before, hrejected, hbefore⟩ := hcut.recvCalls
    rw [esamSendAndRecvCalls_fst hbus] at hend
    rw [esamSendAndRecvCalls_snd hbus] at hreads
    -- with more turns the calls are the same, and those of the cut come first
    have hstable := recvCalls_stable hend (others + rejected)
    rw [← Nat.add_assoc, hbefore] at hstable
    rw [readsOf_append, ← hstable, readsOf_append] at hreads
    omega
  · rintro ⟨most, hmost⟩
    refine ⟨50000 + 3 * most + 3, ?_⟩
    intro spi hspi
    by_cases hbus : spi.takeBus = true
    · obtain ⟨hend, hreads⟩ := recvCalls_ends (hmost spi hspi hbus) .start (50001 + most) (by omega)
      rw [← esamSendAndRecvCalls_fst hbus _ comm] at hend
      refine ⟨50001 + most, hend, ?_, fun s hs => busAfter_esamSendAndRecvCalls hend hs⟩
      rw [esamSendAndRecvCalls_snd hbus, readsOf_append]
      exact (Nat.zero_add _).trans_le hreads
    · have hend : (esamSendAndRecvCalls 0 spi comm).1 ≠ .running := by
        rw [esamSendAndRecvCalls_of_no_bus hbus]
        simp
      refine ⟨0, hend, ?_, fun s hs => busAfter_esamSendAndRecvCalls hend hs⟩
      rw [esamSendAndRecvCalls_of_no_bus hbus]
      exact Nat.zero_le _

/-- A line on which every byte is a start byte. -/
def startBytes : Spi := ⟨true, fun _ => 0x55⟩

/-- On it the exchange does not end. -/
theorem startBytes_never_end : ¬ ∃ bound, ExchangeEnds bound startBytes zeroEsam.comm := by
  have hrunning : ∀ fuel pos, (recvCalls startBytes fuel pos 0).1 = .running := by
    intro fuel
    induction fuel with
    | zero => exact fun _ => rfl
    | succ fuel ih =>
      intro pos
      have hbyte : startBytes.line pos = 0x55 := rfl
      have hlong : ¬ lenthAt startBytes pos < 1023 := by
        show ¬ replyLenth 0x55 0x55 < 1023
        decide
      rw [recvCalls_succ, if_pos (by decide), if_pos hbyte, if_neg hlong]
      exact ih _
  rintro ⟨bound, fuel, hend, -⟩
  rw [esamSendAndRecvCalls_fst rfl] at hend
  exact hend (hrunning fuel 0)

end EnergyRouter
