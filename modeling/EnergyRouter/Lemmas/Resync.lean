import EnergyRouter.Lemmas.ReceiveRun

/-!
# A frame after a pause

A well-formed frame is completed by its last byte (`WellFormed.collects`), so a call that starts clean receives it. Garbage makes
the thread turn and a pause makes a call give up, and either way the receiver ends up clean.
-/

namespace EnergyRouter

open Buffer

variable {frame : List Byte} {rev : CharPointDataManage} {reads : List (Option Byte)} {rx : RxState}

theorem WellFormed.linkFrame (h : WellFormed frame) : LinkFrame frame :=
  ⟨h.head, h.length, h.room, h.hcs, h.fcs, h.last⟩

theorem LinkFrame.wellFormed (h : LinkFrame frame) (hfits : frame.length ≤ 1023) : WellFormed frame :=
  ⟨h.head, h.length, hfits, h.room, h.hcs, h.fcs, h.last⟩

theorem LinkFrame.ne_nil (h : LinkFrame frame) : frame ≠ [] := by
  intro hnil
  have := h.head
  rw [hnil] at this
  cases this

/-- What the last byte of a frame brings. A byte more than the buffer keeps was dropped, and the one in front of it is taken for the
last. -/
def lastVerdict (frame : List Byte) : Verdict := if (kept frame).getLast? = some 0x16 then .complete frame else .reject

/-- The bytes of a frame that is not longer than the receiver allows are collected one by one. -/
theorem LinkFrame.collects (h : LinkFrame frame) (hmax : frame.length ≤ hplcDataMaxSize) :
    Collects frame (lastVerdict frame) := by
  intro p b q hsplit
  have hfull : frame = (p ++ [b]) ++ q := by rw [hsplit]; simp
  have hlen : frame.length = (p ++ [b]).length + q.length := by rw [hfull, List.length_append]
  have hroom := h.room
  have hbounds := headEnd_bounds frame
  by_cases hnil : p = []
  · have hb : b = 0x68 := by
      have hhead := h.head
      rw [hsplit, hnil] at hhead
      simpa using hhead
    have hq : q ≠ [] := by
      intro hq
      rw [hq, hnil] at hlen
      simp at hlen
      omega
    rw [collect, if_pos hnil, if_pos hb, if_neg hq, hnil]
    rfl
  by_cases h3 : p.length < 3
  · have hplen : (p ++ [b]).length = p.length + 1 := by simp
    have hpos := List.length_pos_iff.mpr hnil
    have hq : q ≠ [] := by
      intro hq
      rw [hq, List.length_nil] at hlen
      omega
    rw [collect, if_neg hnil, if_neg hq]
    simp only
    by_cases h2 : (p ++ [b]).length < 3
    · rw [if_pos h2]
    · have hwant : wantLen (p ++ [b]) = frame.length := by
        rw [← h.length, hfull, wantLen_append q (by omega)]
      rw [if_neg h2, if_neg (by omega), if_neg (by omega), if_neg (by omega), if_neg (by omega)]
  · have hplen : (p ++ [b]).length = p.length + 1 := by simp
    have hwant : wantLen (p ++ [b]) = frame.length := by
      rw [← h.length, hfull, wantLen_append q (by omega)]
    rw [collect_of_three_le b (by omega), if_neg (by rw [hwant]; omega), if_neg, hwant]
    · by_cases hq : q = []
      · have hwhole : p ++ [b] = frame := by rw [hfull, hq, List.append_nil]
        rw [if_pos hq, hwhole, if_pos ⟨by omega, rfl⟩, lastVerdict]
      · have := List.length_pos_iff.mpr hq
        rw [if_neg hq, if_neg (by omega)]
    · -- the header check is made over exactly the header, which passes it
      rintro ⟨h5, hend, hbad⟩
      have hhead : headEnd (p ++ [b]) = headEnd frame := by rw [hfull, headEnd_append q (by omega)]
      apply hbad
      have hcs := h.hcs
      rw [← hhead, ← hend, hfull, List.take_left] at hcs
      exact hcs

theorem WellFormed.collects (h : WellFormed frame) : Collects frame (.complete frame) := by
  have hfits := h.fits
  have hcollects := h.linkFrame.collects (by rw [hplcDataMaxSize]; omega)
  rw [lastVerdict, kept_of_le hfits, if_pos h.last] at hcollects
  exact hcollects

/-- In a well-formed frame the fourteen bits of the length field are the whole field. -/
theorem WellFormed.lengthField (h : WellFormed frame) :
    EnergyRouter.lengthField frame + 2 = frame.length := by
  have hlen := h.length
  have hfits := h.fits
  have hmask : (frame.getD 2 0 &&& 0x3f#8).toNat = (frame.getD 2 0).toNat % 64 := by
    rw [BitVec.toNat_and]
    exact Nat.and_two_pow_sub_one_eq_mod _ 6
  rw [wantLen] at hlen
  rw [EnergyRouter.lengthField, hmask, Nat.mod_eq_of_lt (by omega)]
  exact hlen

/-- A buffer that keeps a frame whole holds it from its first cell on. -/
theorem Stored.front_eq (hs : Stored frame rev) (hle : frame.length ≤ 1023) :
    rev.dataSize = frame.length ∧ front rev.priveData frame.length = frame := by
  have hsize : rev.dataSize = frame.length := by rw [hs.dataSize, kept_of_le hle]
  have hcont := hs.contents
  rw [CharPointDataManage.contents, hsize, kept_of_le hle] at hcont
  exact ⟨hsize, hcont⟩

theorem unPackage698_stored (hs : Stored frame rev) (hle : frame.length ≤ 1023) (h17 : 17 ≤ frame.length)
    (hlength : lengthField frame + 2 = frame.length) :
    (unPackage698 rev.priveData rev.frame698 rev.dataSize).1 = 0 := by
  obtain ⟨hsize, hcont⟩ := hs.front_eq hle
  rw [lengthField] at hlength
  rw [unPackage698_zero, hsize, getD_front rev.priveData 0 (by omega : 2 < frame.length),
    getD_front rev.priveData 0 (by omega : 1 < frame.length), hcont]
  omega

/-- The analysis accepts a frame of the right length whose check is good. -/
theorem priveDataAnalysis_stored (hs : Stored frame rev) (hle : frame.length ≤ 1023) (h17 : 17 ≤ frame.length)
    (hlength : lengthField frame + 2 = frame.length) (hfcs : FcsGood frame.dropLast) :
    priveDataAnalysis false rev =
      some (0, { rev with frame698 := (unPackage698 rev.priveData rev.frame698 rev.dataSize).2 }) := by
  obtain ⟨hsize, hcont⟩ := hs.front_eq hle
  have hgood : FcsGood (front rev.priveData (rev.dataSize - 1)) := by
    rw [hsize, ← front_dropLast rev.priveData (by rw [hplcDataMaxSize]; omega), hcont]
    exact hfcs
  have hpack := unPackage698_stored hs hle h17 hlength
  rw [priveDataAnalysis_eq rev (by omega) (by rw [hplcDataMaxSize]; omega), if_pos hgood, if_neg (not_not.mpr hpack)]

/-- A well-formed frame that is long enough for the fields of the analysis is accepted by it. -/
theorem priveDataAnalysis_wellFormed (h : WellFormed frame) (hs : Stored frame rev) (h17 : 17 ≤ frame.length) :
    priveDataAnalysis false rev =
      some (0, { rev with frame698 := (unPackage698 rev.priveData rev.frame698 rev.dataSize).2 }) :=
  priveDataAnalysis_stored hs h.fits h17 h.lengthField h.fcs

section

variable {W : Type} (checkAfairFromBotom : W → W)

/-- Fewer than thirty empty reads in a row only count. -/
theorem receiveLoop_short_pause (k : Nat) (rest : List (Option Byte)) (times : Nat) (rx : RxState)
    (rev : CharPointDataManage) (w : W) (hk : times + k < 30) :
    ∃ w', receiveLoop checkAfairFromBotom false (List.replicate k none ++ rest) times rx rev w =
      receiveLoop checkAfairFromBotom false rest (times + k) rx rev w' := by
  induction k generalizing times w with
  | zero => exact ⟨w, rfl⟩
  | succ k ih =>
    obtain ⟨w', hw'⟩ := ih (times + 1) (checkAfairFromBotom w) (by omega)
    refine ⟨w', ?_⟩
    rw [List.replicate_succ, List.cons_append, receiveLoop, if_neg (by omega), hw', show times + 1 + k = times + (k + 1) by omega]

/-- A call that has collected the first part of a frame comes to its last byte, however the rest is delivered. -/
theorem receiveLoop_delivery {verdict : Verdict} (h : Collects frame verdict) {q : List Byte} (hdel : Delivery q reads)
    (tail : List (Option Byte)) {p : List Byte} (hsplit : frame = p ++ q) (hq : q ≠ []) (w : W) (ht : Tracks p rx rev) :
    ∃ p' b rx' rev' w', collect p' b = verdict ∧ Tracks p' rx' rev' ∧
      receiveLoop checkAfairFromBotom false (reads ++ tail) 0 rx rev w =
        receiveLoop checkAfairFromBotom false (some b :: tail) 0 rx' rev' w' := by
  induction hdel generalizing p rx rev w with
  | nil => exact absurd rfl hq
  | cons k hk b hrest ih =>
    rename_i q reads
    obtain ⟨w₁, hpause⟩ := receiveLoop_short_pause checkAfairFromBotom k (some b :: reads ++ tail) 0 rx rev w (by omega)
    rw [List.append_assoc, hpause]
    have hverdict := h p b q hsplit
    by_cases hnil : q = []
    · subst hnil
      cases hrest
      rw [if_pos rfl] at hverdict
      exact ⟨p, b, rx, rev, w₁, hverdict, ht, rfl⟩
    · rw [if_neg hnil] at hverdict
      obtain ⟨flow, hflow, hshows⟩ := receiveByte_shows ht b
      obtain ⟨rx', rev', rfl, ht', _⟩ := Shows.of_more (hverdict ▸ hshows)
      obtain ⟨p', b', rx₁, rev₁, w', hend, ht₁, hloop⟩ := ih (by rw [hsplit]; simp) hnil w₁ ht'
      refine ⟨p', b', rx₁, rev₁, w', hend, ht₁, ?_⟩
      rw [List.cons_append, receiveLoop, hflow]
      exact hloop

/-- A call that starts clean receives a frame that its last byte completes. -/
theorem receiveLoop_completed (h : Collects frame (.complete frame)) (hne : frame ≠ []) (hdel : Delivery frame reads)
    (tail : List (Option Byte)) (w : W) (ht : Tracks [] rx rev) :
    ∃ r, receiveLoop checkAfairFromBotom false (reads ++ tail) 0 rx rev w = some r ∧ r.result = 0 ∧ Stored frame r.rev ∧
      r.reads = tail := by
  obtain ⟨p, b, rx₁, rev₁, w₁, hverdict, ht₁, hloop⟩ := receiveLoop_delivery checkAfairFromBotom h hdel tail rfl hne w ht
  obtain ⟨flow, hflow, hshows⟩ := receiveByte_shows ht₁ b
  obtain ⟨rx', rev', rfl, hs, _⟩ := Shows.of_complete (hverdict ▸ hshows)
  rw [hloop, receiveLoop, hflow]
  exact ⟨_, rfl, rfl, hs, rfl⟩

/-- A call that starts clean gives up a frame that its last byte makes it reject. -/
theorem receiveLoop_rejected (h : Collects frame .reject) (hne : frame ≠ []) (hdel : Delivery frame reads)
    (tail : List (Option Byte)) (w : W) (ht : Tracks [] rx rev) :
    ∃ r, receiveLoop checkAfairFromBotom false (reads ++ tail) 0 rx rev w = some r ∧ r.result = -1 := by
  obtain ⟨p, b, rx₁, rev₁, w₁, hverdict, ht₁, hloop⟩ := receiveLoop_delivery checkAfairFromBotom h hdel tail rfl hne w ht
  obtain ⟨flow, hflow, hshows⟩ := receiveByte_shows ht₁ b
  obtain ⟨rx', rev', rfl, _⟩ := Shows.of_reject (hverdict ▸ hshows)
  rw [hloop, receiveLoop, hflow]
  exact ⟨_, rfl, rfl⟩

theorem delivery_map_some (frame : List Byte) : Delivery frame (frame.map some) := by
  induction frame with
  | nil => exact .nil
  | cons b frame ih => exact .cons 0 (by omega) b ih

theorem receiveLoop_long_pause (k : Nat) (rest : List (Option Byte)) (times : Nat) (rx : RxState)
    (rev : CharPointDataManage) (w : W) (htimes : times < 30) (hk : 30 ≤ times + k) :
    ∃ r, receiveLoop checkAfairFromBotom false (List.replicate k none ++ rest) times rx rev w = some r ∧
      r.reads = List.replicate (times + k - 30) none ++ rest := by
  obtain ⟨w', hw'⟩ := receiveLoop_short_pause checkAfairFromBotom (29 - times)
    (List.replicate (times + k - 29) none ++ rest) times rx rev w (by omega)
  rw [← List.append_assoc, ← List.replicate_add, show 29 - times + (times + k - 29) = k by omega] at hw'
  rw [show times + k - 29 = (times + k - 30) + 1 by omega, List.replicate_succ, List.cons_append, receiveLoop,
    if_pos (by omega)] at hw'
  exact ⟨_, hw', rfl⟩

/-- A call over anything before a long pause returns: in the middle of the garbage, or in the pause. -/
theorem receiveLoop_garbage (garbage rest : List (Option Byte)) (k : Nat) (hk : 30 ≤ k) (times : Nat) (htimes : times < 30)
    {seg : List Byte} (w : W) (h : Tracks seg rx rev) :
    ∃ r, receiveLoop checkAfairFromBotom false (garbage ++ (List.replicate k none ++ rest)) times rx rev w = some r ∧
      ((∃ used garbage', used ≠ [] ∧ garbage = used ++ garbage' ∧ r.reads = garbage' ++ (List.replicate k none ++ rest)) ∨
        ∃ j, r.reads = List.replicate j none ++ rest) := by
  induction garbage generalizing times seg rx rev w with
  | nil =>
    obtain ⟨r, hr, hreads⟩ := receiveLoop_long_pause checkAfairFromBotom k rest times rx rev w htimes (by omega)
    exact ⟨r, hr, Or.inr ⟨_, hreads⟩⟩
  | cons read garbage ih =>
    have hstep : ∀ {r : Received W},
        ((∃ used garbage', used ≠ [] ∧ garbage = used ++ garbage' ∧ r.reads = garbage' ++ (List.replicate k none ++ rest)) ∨
          ∃ j, r.reads = List.replicate j none ++ rest) →
        ((∃ used garbage', used ≠ [] ∧ read :: garbage = used ++ garbage' ∧
            r.reads = garbage' ++ (List.replicate k none ++ rest)) ∨
          ∃ j, r.reads = List.replicate j none ++ rest) := by
      rintro r (⟨used, garbage', hne, hsplit, hreads⟩ | hpause)
      · exact Or.inl ⟨read :: used, garbage', by simp, by rw [hsplit]; rfl, hreads⟩
      · exact Or.inr hpause
    rw [List.cons_append]
    cases read with
    | none =>
      rw [receiveLoop]
      split_ifs with hend
      · exact ⟨_, rfl, Or.inl ⟨[none], garbage, by simp, rfl, rfl⟩⟩
      · obtain ⟨r, hr, hcase⟩ := ih (times + 1) (by omega) (checkAfairFromBotom w) h
        exact ⟨r, hr, hstep hcase⟩
    | some b =>
      obtain ⟨flow, hflow, hshows⟩ := receiveByte_shows h b
      rw [receiveLoop, hflow]
      cases flow with
      | next rx' rev' =>
        obtain ⟨seg', ht⟩ := hshows.tracks
        obtain ⟨r, hr, hcase⟩ := ih 0 (by omega) w ht
        exact ⟨r, hr, hstep hcase⟩
      | ret result rx' rev' => exact ⟨_, rfl, Or.inl ⟨[some b], garbage, by simp, rfl, rfl⟩⟩
      | complete rx' rev' => exact ⟨_, rfl, Or.inl ⟨[some b], garbage, by simp, rfl, rfl⟩⟩

variable (answer645 : CharPointDataManage → W → W) (service : Service W)

/-- Unless the byte in front of the buffer is the end character, a turn ends whenever its call does. -/
theorem hplcThreadTurn_of_below {w : W} {r : Received W} (h : Tracks [] rx rev) (hbelow : rev.below ≠ 0x16)
    (hr : getSingleFrameFromeHplc checkAfairFromBotom false reads rx rev w = some r) :
    ∃ r', hplcThreadTurn checkAfairFromBotom false answer645 service reads rx rev w = some r' ∧ r'.reads = r.reads ∧
      Tracks [] r'.rx r'.rev ∧ r'.rev.below = rev.below := by
  obtain ⟨used, _, _, hends⟩ := receiveLoop_ends checkAfairFromBotom reads 0 (checkAfairFromBotom w) h hr
  have hok : ¬ (r.result = 0 ∧ r.rev.dataSize = 0) := by
    rintro ⟨hres, hd⟩
    cases hends with
    | failed hres' ht hb => rw [hres] at hres'; cases hres'
    | is645 hres' hs hb => rw [hres] at hres'; cases hres'
    | underflow hres' hb hd' => exact hbelow hb
    | complete hres' seg skipped hs hc hread hb =>
      have := hc.dataSize hs
      omega
  exact hplcThreadTurn_of_call checkAfairFromBotom answer645 service hends hr hok

theorem hplcThreadTurns_cons {n : Nat} {w : W} {r s : Received W}
    (hr : hplcThreadTurn checkAfairFromBotom false answer645 service reads rx rev w = some r)
    (hs : hplcThreadTurns checkAfairFromBotom false answer645 service n r.reads r.rx r.rev r.world = some s) :
    hplcThreadTurns checkAfairFromBotom false answer645 service (n + 1) reads rx rev w = some s := by
  rw [hplcThreadTurns, hr, Option.bind_eq_bind, Option.bind_some, hs]

/-- In a pause the thread keeps turning until fewer than thirty empty reads are left. -/
theorem hplcThreadTurns_pause (k : Nat) (rest : List (Option Byte)) (w : W) (h : Tracks [] rx rev) (hbelow : rev.below ≠ 0x16) :
    ∃ n j s, j < 30 ∧
      hplcThreadTurns checkAfairFromBotom false answer645 service n (List.replicate k none ++ rest) rx rev w = some s ∧
      s.reads = List.replicate j none ++ rest ∧ Tracks [] s.rx s.rev := by
  induction k using Nat.strong_induction_on generalizing rx rev w with
  | _ k ih =>
    by_cases hk : k < 30
    · exact ⟨0, k, _, hk, rfl, rfl, h⟩
    · obtain ⟨r, hr, hreads⟩ := receiveLoop_long_pause checkAfairFromBotom k rest 0 rx rev (checkAfairFromBotom w)
        (by omega) (by omega)
      obtain ⟨r', hr', hreads', ht, hb⟩ := hplcThreadTurn_of_below checkAfairFromBotom answer645 service h hbelow hr
      obtain ⟨n, j, s, hj, hs, hrest, hts⟩ := ih (0 + k - 30) (by omega) r'.world ht (hb ▸ hbelow)
      rw [← hreads, ← hreads'] at hs
      exact ⟨n + 1, j, s, hj, hplcThreadTurns_cons checkAfairFromBotom answer645 service hr' hs, hrest, hts⟩

/-- Garbage followed by a long pause brings the thread to a clean call in the pause. -/
theorem hplcThreadTurns_garbage (garbage rest : List (Option Byte)) (k : Nat) (hk : 30 ≤ k) (w : W) (h : Tracks [] rx rev)
    (hbelow : rev.below ≠ 0x16) :
    ∃ n j s, j < 30 ∧
      hplcThreadTurns checkAfairFromBotom false answer645 service n (garbage ++ (List.replicate k none ++ rest)) rx rev w =
        some s ∧
      s.reads = List.replicate j none ++ rest ∧ Tracks [] s.rx s.rev := by
  -- induction on the garbage left, which every call that returns in it makes shorter
  induction hlen : garbage.length using Nat.strong_induction_on generalizing garbage rx rev w with
  | _ len ih =>
    obtain ⟨r, hr, hcase⟩ := receiveLoop_garbage checkAfairFromBotom garbage rest k hk 0 (by omega) (checkAfairFromBotom w) h
    obtain ⟨r', hr', hreads', ht, hb⟩ := hplcThreadTurn_of_below checkAfairFromBotom answer645 service h hbelow hr
    rcases hcase with ⟨used, garbage', hne, hsplit, hreads⟩ | ⟨m, hreads⟩
    · have hshort : garbage'.length < len := by
        have := List.length_pos_iff.mpr hne
        rw [← hlen, hsplit, List.length_append]
        omega
      obtain ⟨n, j, s, hj, hs, hrest, hts⟩ := ih garbage'.length hshort garbage' r'.world ht (hb ▸ hbelow) rfl
      rw [← hreads, ← hreads'] at hs
      exact ⟨n + 1, j, s, hj, hplcThreadTurns_cons checkAfairFromBotom answer645 service hr' hs, hrest, hts⟩
    · obtain ⟨n, j, s, hj, hs, hrest, hts⟩ :=
        hplcThreadTurns_pause checkAfairFromBotom answer645 service m rest r'.world ht (hb ▸ hbelow)
      rw [← hreads, ← hreads'] at hs
      exact ⟨n + 1, j, s, hj, hplcThreadTurns_cons checkAfairFromBotom answer645 service hr' hs, hrest, hts⟩

/-- A call that starts clean in a short pause receives the frame behind it. -/
theorem getSingleFrame_after_pause (h : WellFormed frame) (j : Nat) (hj : j < 30) (tail : List (Option Byte)) (w : W)
    (ht : Tracks [] rx rev) :
    ∃ r, getSingleFrameFromeHplc checkAfairFromBotom false (List.replicate j none ++ (frame.map some ++ tail)) rx rev w =
        some r ∧
      r.result = 0 ∧ Stored frame r.rev ∧ r.reads = tail := by
  have hdel : ∀ frame : List Byte, frame ≠ [] → Delivery frame (List.replicate j none ++ frame.map some) := by
    intro frame hne
    cases frame with
    | nil => exact absurd rfl hne
    | cons b frame => exact .cons j hj b (delivery_map_some frame)
  rw [getSingleFrameFromeHplc, ← List.append_assoc]
  exact receiveLoop_completed checkAfairFromBotom h.collects h.linkFrame.ne_nil (hdel frame h.linkFrame.ne_nil) tail _ ht

end

end EnergyRouter
