import Mathlib.Data.List.ReduceOption
import EnergyRouter.Lemmas.Receive

/-!
# Calls of the receiver and turns of its thread

`receiveLoop_ends` says how a call can end and that what it completes is the last part of what it read; `hplcThreadTurn_clean` that
every turn of the thread leaves a receiver that has collected nothing.
-/

namespace EnergyRouter

open Buffer

variable {seg seg' : List Byte} {b : Byte} {used reads : List (Option Byte)} {rx : RxState} {rev : CharPointDataManage}

/-- A segment that has all its announced bytes and ends, as far as it is kept, with the end character. -/
structure Completed (seg : List Byte) : Prop where
  head : seg.head? = some 0x68
  want : 12 ≤ wantLen seg
  length : seg.length = wantLen seg
  fits : Escaped seg ∨ wantLen seg ≤ hplcDataMaxSize
  last : (kept seg).getLast? = some 0x16

theorem collect_more (h : collect seg b = .more seg') :
    seg' = seg ++ [b] ∨ (seg = [] ∧ seg' = []) := by
  unfold collect at h
  split at h
  · rename_i hnil
    split at h
    · cases h
      exact Or.inl (by simp [hnil])
    · cases h
      exact Or.inr ⟨hnil, rfl⟩
  · simp only at h
    split_ifs at h
    all_goals
      cases h
      exact Or.inl rfl

/-- A segment that `collect` completes has all its bytes, and the byte just read is the last of them. -/
theorem collect_complete (hopen : Opened seg) (h : collect seg b = .complete seg') :
    seg' = seg ++ [b] ∧ Completed (seg ++ [b]) := by
  have hne : seg ≠ [] := by
    intro hnil
    rw [collect, if_pos hnil] at h
    split_ifs at h
  have h3 : 3 ≤ seg.length := by
    by_contra hlt
    rw [collect, if_neg hne] at h
    simp only at h
    have hlen : (seg ++ [b]).length = seg.length + 1 := by simp
    split_ifs at h with h1 h2 h3 h4 h5 h6
    omega
  have hlen : (seg ++ [b]).length = seg.length + 1 := by simp
  have hwant := wantLen_append [b] h3
  obtain ⟨h12, hlt⟩ := hopen.want h3
  rw [collect_of_three_le b h3] at h
  split_ifs at h with h1 h2 h3' h4 h5
  cases h
  refine ⟨rfl, ?_, by omega, h4.2, ?_, h5⟩
  · rw [List.head?_append_of_ne_nil _ hne]
    exact hopen.head hne
  · rw [escaped_append [b] h3, hwant]
    exact hopen.fits (by omega)

/-- How a call that read `used` after it had collected `seg` can end: given up, the broadcast request, the empty buffer over an end
character, or a completed segment that is the last part of what was read. -/
inductive Ends (W : Type) (below : Byte) (seg : List Byte) (used : List (Option Byte)) (r : Received W) : Prop where
  | failed (hres : r.result = -1) (ht : Tracks [] r.rx r.rev) (hb : r.rev.below = below)
  | is645 (hres : r.result = 1) (hs : r.rev.size = hplcDataMaxSize) (hb : r.rev.below = below)
  | underflow (hres : r.result = 0) (hb : below = 0x16) (hd : r.rev.dataSize = 0)
  | complete (hres : r.result = 0) (seg' skipped : List Byte) (hs : Stored seg' r.rev) (hc : Completed seg')
      (hread : seg ++ used.reduceOption = skipped ++ seg') (hb : r.rev.below = below)

/-- How a call ends does not depend on where it was cut. -/
theorem Ends.of_read {W : Type} {below : Byte} {seg₀ : List Byte} {used₀ : List (Option Byte)} {r : Received W}
    (h : Ends W below seg used r) (hread : ∀ seg' skipped, seg ++ used.reduceOption = skipped ++ seg' →
      ∃ skipped', seg₀ ++ used₀.reduceOption = skipped' ++ seg') : Ends W below seg₀ used₀ r := by
  cases h with
  | failed hres ht hb => exact .failed hres ht hb
  | is645 hres hs hb => exact .is645 hres hs hb
  | underflow hres hb hd => exact .underflow hres hb hd
  | complete hres seg' skipped hs hc hsplit hb =>
    obtain ⟨skipped', hsplit'⟩ := hread seg' skipped hsplit
    exact .complete hres seg' skipped' hs hc hsplit' hb

variable {W : Type} (checkAfairFromBotom : W → W)

/-- The run lemma of a call: it reads a first part of the port and ends in one of the four ways. -/
theorem receiveLoop_ends (reads : List (Option Byte)) (times : Nat) (w : W) {r : Received W} (h : Tracks seg rx rev)
    (hr : receiveLoop checkAfairFromBotom false reads times rx rev w = some r) :
    ∃ used, used ≠ [] ∧ reads = used ++ r.reads ∧ Ends W rev.below seg used r := by
  -- induction on the port, the segment collected so far being the invariant
  induction reads generalizing times seg rx rev w with
  | nil => simp [receiveLoop] at hr
  | cons read reads ih =>
    cases read with
    | none =>
      rw [receiveLoop] at hr
      split_ifs at hr with htimes
      · cases hr
        exact ⟨[none], by simp, rfl, .failed rfl (tracks_clearData rx h.size) rfl⟩
      · obtain ⟨used, _, hsplit, hends⟩ := ih _ _ h hr
        refine ⟨none :: used, by simp, by rw [hsplit]; rfl, hends.of_read ?_⟩
        intro seg' skipped hread
        exact ⟨skipped, by simpa using hread⟩
    | some b =>
      obtain ⟨flow, hflow, hshows⟩ := receiveByte_shows h b
      rw [receiveLoop, hflow] at hr
      cases hverdict : collect seg b with
      | more seg' =>
        obtain ⟨rx', rev', rfl, ht, hbelow⟩ := Shows.of_more (hverdict ▸ hshows)
        obtain ⟨used, _, hsplit, hends⟩ := ih _ _ ht hr
        refine ⟨some b :: used, by simp, by rw [hsplit]; rfl, (hbelow ▸ hends).of_read ?_⟩
        intro seg'' skipped hread
        rcases collect_more hverdict with rfl | ⟨rfl, rfl⟩
        · exact ⟨skipped, by simpa using hread⟩
        · exact ⟨b :: skipped, by simpa using hread⟩
      | reject =>
        obtain ⟨rx', rev', rfl, ht, hbelow⟩ := Shows.of_reject (hverdict ▸ hshows)
        cases hr
        exact ⟨[some b], by simp, rfl, .failed rfl ht hbelow⟩
      | badHeader =>
        rcases Shows.of_badHeader (hverdict ▸ hshows) with ⟨rx', rev', rfl, ht, hbelow⟩ | ⟨rx', rev', rfl, hbelow, hd⟩
        · cases hr
          exact ⟨[some b], by simp, rfl, .failed rfl ht hbelow⟩
        · cases hr
          exact ⟨[some b], by simp, rfl, .underflow rfl hbelow hd⟩
      | is645 =>
        obtain ⟨rx', rev', rfl, hsize, hbelow⟩ := Shows.of_is645 (hverdict ▸ hshows)
        cases hr
        exact ⟨[some b], by simp, rfl, .is645 rfl hsize hbelow⟩
      | complete seg' =>
        obtain ⟨rx', rev', rfl, hs, hbelow⟩ := Shows.of_complete (hverdict ▸ hshows)
        obtain ⟨rfl, hc⟩ := collect_complete h.opened hverdict
        cases hr
        exact ⟨[some b], by simp, rfl, .complete rfl _ [] hs hc (by simp) hbelow⟩

/-! ## Segments collected byte by byte -/

/-- Where a longer segment can be cut: in front of its last byte, or inside the shorter one. -/
theorem cut_concat {p q : List Byte} {c : Byte} (h : seg ++ [b] = p ++ c :: q) :
    (q = [] ∧ p = seg ∧ c = b) ∨ ∃ q', q = q' ++ [b] ∧ seg = p ++ c :: q' := by
  rcases List.eq_nil_or_concat q with rfl | ⟨q', d, rfl⟩
  · obtain ⟨hp, hc⟩ := List.append_inj' h rfl
    cases hc
    exact Or.inl ⟨rfl, hp.symm, rfl⟩
  · have h' : seg ++ [b] = (p ++ c :: q') ++ [d] := by simpa using h
    obtain ⟨hp, hd⟩ := List.append_inj' h' rfl
    cases hd
    exact Or.inr ⟨q', by simp, hp⟩

theorem growing_nil : Growing [] := by
  intro p b q h
  simp at h

theorem Growing.more (h : Growing seg) (hmore : collect seg b = .more seg') :
    Growing seg' := by
  rcases collect_more hmore with rfl | ⟨_, rfl⟩
  · intro p c q hcut
    rcases cut_concat hcut with ⟨_, rfl, rfl⟩ | ⟨q', _, hseg⟩
    · exact hmore
    · exact h p c q' hseg
  · exact growing_nil

theorem Growing.complete (h : Growing seg) (hcomplete : collect seg b = .complete (seg ++ [b])) :
    Collects (seg ++ [b]) (.complete (seg ++ [b])) := by
  intro p c q hcut
  rcases cut_concat hcut with ⟨rfl, rfl, rfl⟩ | ⟨q', rfl, hseg⟩
  · rw [if_pos rfl]
    exact hcomplete
  · rw [if_neg (by simp)]
    exact h p c q' hseg

/-- A frame that was completed with its header inside passed the header check on the way. -/
theorem Collects.headerGood {frame : List Byte} (h : Collects frame (.complete frame)) (hlen : headEnd frame ≤ frame.length) :
    FcsGood (frame.take (headEnd frame)) := by
  have hbounds := headEnd_bounds frame
  -- the byte that ends the header
  obtain ⟨b, hb⟩ : ∃ b, frame[headEnd frame - 1]? = some b := ⟨_, List.getElem?_eq_getElem (by omega)⟩
  have htake : frame.take (headEnd frame) = frame.take (headEnd frame - 1) ++ [b] := by
    have hstep := List.take_add_one (l := frame) (i := headEnd frame - 1)
    rw [hb, Nat.sub_add_cancel (by omega)] at hstep
    exact hstep
  have hcut : frame = frame.take (headEnd frame - 1) ++ b :: frame.drop (headEnd frame) := by
    have hwhole := List.take_append_drop (headEnd frame) frame
    rw [htake, List.append_assoc] at hwhole
    exact hwhole.symm
  have hplen : (frame.take (headEnd frame - 1)).length = headEnd frame - 1 := by
    rw [List.length_take]
    omega
  have hend : headEnd (frame.take (headEnd frame - 1) ++ [b]) = headEnd frame := by
    have happ : headEnd (frame.take (headEnd frame - 1) ++ [b] ++ frame.drop (headEnd frame)) = _ :=
      headEnd_append _ (by rw [List.length_append, hplen]; simp; omega)
    rw [List.append_assoc] at happ
    rw [← happ]
    exact congrArg headEnd hcut.symm
  have hverdict := h _ b _ hcut
  rw [collect_of_three_le b (by omega), hend, List.length_append, hplen, List.length_singleton] at hverdict
  by_contra hbad
  rw [htake] at hbad
  rw [if_neg (by omega), if_pos ⟨by omega, by omega, hbad⟩] at hverdict
  split_ifs at hverdict

/-! ## The analysis of a frame -/

/-- The length field of a frame, of which fourteen bits count. -/
def lengthField (frame : List Byte) : Nat := (frame.getD 2 0 &&& 0x3f#8).toNat * 256 + (frame.getD 1 0).toNat

/-- Unpacking succeeds exactly when the length field fits and there is room for the user data fields. -/
theorem unPackage698_zero (data : Vector Byte hplcDataMaxSize) (frame : Frame698) (size : Nat) :
    (unPackage698 data frame size).1 = 0 ↔
      ((data.getD 2 0 &&& 0x3f#8).toNat * 256 + (data.getD 1 0).toNat : Int) = (size : Int) - 2 ∧
        17 ≤ size ∧ size ≤ 1041 := by
  unfold unPackage698
  simp only
  split_ifs with h1 h2
  · simp only [Nat.cast_add, Nat.cast_mul, Nat.cast_ofNat] at h1
    simp only [reduceCtorEq, false_iff]
    exact fun hc => h1 hc.1
  · simp only
    omega
  · simp only [Nat.cast_add, Nat.cast_mul, Nat.cast_ofNat, not_not] at h1
    simp only [true_iff]
    omega

/-- An analysis of at least two bytes always ends: the frame check first, then the unpacking. -/
theorem priveDataAnalysis_eq (rev : CharPointDataManage) (h2 : 2 ≤ rev.dataSize) (hle : rev.dataSize ≤ hplcDataMaxSize) :
    priveDataAnalysis false rev =
      if FcsGood (front rev.priveData (rev.dataSize - 1)) then
        some (if (unPackage698 rev.priveData rev.frame698 rev.dataSize).1 ≠ 0 then -1 else 0,
          { rev with frame698 := (unPackage698 rev.priveData rev.frame698 rev.dataSize).2 })
      else some (-1, rev) := by
  have hcheck := goodFcs_front (-2) rev.priveData (rev.dataSize - 2) (by omega)
  rw [show rev.dataSize - 2 + 1 = rev.dataSize - 1 by omega, Int.natCast_sub h2] at hcheck
  have hfcs : fcs698 rev.priveData 1 ((rev.dataSize : Int) - 2) 0 =
      some (if FcsGood (front rev.priveData (rev.dataSize - 1)) then 0 else -2) := hcheck
  simp only [priveDataAnalysis, Bool.false_eq_true, if_false, hfcs, Option.bind_eq_bind, Option.bind_some]
  by_cases hgood : FcsGood (front rev.priveData (rev.dataSize - 1))
  · simp only [if_pos hgood, ne_eq, not_true_eq_false, if_false]
  · simp only [if_neg hgood, ne_eq, reduceCtorEq, not_false_eq_true, if_true]

theorem priveDataAnalysis_none (rev : CharPointDataManage) (h : rev.dataSize < 2) : priveDataAnalysis false rev = none := by
  have hfcs : fcs698 rev.priveData 1 ((rev.dataSize : Int) - 2) 0 = none := by
    rw [fcs698, goodFcs, if_neg (by omega), pppfcs16, if_pos (by omega)]
    rfl
  simp only [priveDataAnalysis, Bool.false_eq_true, if_false, hfcs, Option.bind_eq_bind, Option.bind_none]

theorem priveDataAnalysis_zero {rev' : CharPointDataManage} (hle : rev.dataSize ≤ hplcDataMaxSize)
    (h : priveDataAnalysis false rev = some (0, rev')) :
    17 ≤ rev.dataSize ∧ FcsGood rev.contents.dropLast ∧ lengthField rev.contents = rev.dataSize - 2 := by
  have h2 : 2 ≤ rev.dataSize := by
    by_contra hlt
    rw [priveDataAnalysis_none rev (by omega)] at h
    cases h
  rw [priveDataAnalysis_eq rev h2 hle] at h
  split_ifs at h with hgood hpack
  · cases h
  · have hzero : (unPackage698 rev.priveData rev.frame698 rev.dataSize).1 = 0 := not_not.mp hpack
    obtain ⟨hlength, h17, _⟩ := (unPackage698_zero _ _ _).mp hzero
    have hdrop : rev.contents.dropLast = front rev.priveData (rev.dataSize - 1) := front_dropLast rev.priveData hle
    refine ⟨h17, by rw [hdrop]; exact hgood, ?_⟩
    rw [lengthField, CharPointDataManage.contents, ← getD_front rev.priveData 0 (by omega),
      ← getD_front rev.priveData 0 (by omega)]
    omega
  · cases h

/-! ## Turns of the thread -/

/-- The buffer a completed segment was stored in holds at least twelve bytes. -/
theorem Completed.dataSize (hc : Completed seg) (hs : Stored seg rev) :
    12 ≤ rev.dataSize ∧ rev.dataSize < hplcDataMaxSize := by
  have hlen := hc.length
  have hwant := hc.want
  rw [hs.dataSize, kept_length, hplcDataMaxSize]
  omega

/-- A call that returns a frame leaves at most as many bytes as the buffer keeps. -/
theorem receiveLoop_dataSize_le {w : W} {r : Received W} (ht : Tracks [] rx rev)
    (hr : receiveLoop checkAfairFromBotom false reads 0 rx rev w = some r) (hzero : r.result = 0) : r.rev.dataSize ≤ 1023 := by
  obtain ⟨used, _, _, hends⟩ := receiveLoop_ends checkAfairFromBotom reads 0 w ht hr
  cases hends with
  | failed hres ht hb => rw [hzero] at hres; cases hres
  | is645 hres hs hb => rw [hzero] at hres; cases hres
  | underflow hres hb hd => omega
  | complete hres seg skipped hs hc hread hb =>
    rw [hs.dataSize, kept_length]
    omega

/-- A call that returns a frame collected it byte by byte. -/
theorem receiveLoop_collected (reads : List (Option Byte)) (times : Nat) (w : W) {r : Received W} (h : Tracks seg rx rev)
    (hg : Growing seg) (hr : receiveLoop checkAfairFromBotom false reads times rx rev w = some r) (hzero : r.result = 0)
    (hdata : r.rev.dataSize ≠ 0) :
    ∃ frame, Stored frame r.rev ∧ Completed frame ∧ Collects frame (.complete frame) := by
  induction reads generalizing times seg rx rev w with
  | nil => simp [receiveLoop] at hr
  | cons read reads ih =>
    cases read with
    | none =>
      rw [receiveLoop] at hr
      split_ifs at hr
      · cases hr
        cases hzero
      · exact ih _ _ h hg hr
    | some b =>
      obtain ⟨flow, hflow, hshows⟩ := receiveByte_shows h b
      rw [receiveLoop, hflow] at hr
      cases hverdict : collect seg b with
      | more seg' =>
        obtain ⟨rx', rev', rfl, ht, _⟩ := Shows.of_more (hverdict ▸ hshows)
        exact ih _ _ ht (hg.more hverdict) hr
      | reject =>
        obtain ⟨rx', rev', rfl, _⟩ := Shows.of_reject (hverdict ▸ hshows)
        cases hr
        cases hzero
      | badHeader =>
        rcases Shows.of_badHeader (hverdict ▸ hshows) with ⟨rx', rev', rfl, _⟩ | ⟨rx', rev', rfl, _, hd⟩
        · cases hr
          cases hzero
        · cases hr
          exact absurd hd hdata
      | is645 =>
        obtain ⟨rx', rev', rfl, _⟩ := Shows.of_is645 (hverdict ▸ hshows)
        cases hr
        cases hzero
      | complete seg' =>
        obtain ⟨rx', rev', rfl, hs, _⟩ := Shows.of_complete (hverdict ▸ hshows)
        obtain ⟨rfl, hc⟩ := collect_complete h.opened hverdict
        cases hr
        exact ⟨_, hs, hc, hg.complete hverdict⟩

variable (answer645 : CharPointDataManage → W → W) (service : Service W)

/-- A turn ends, with a clean receiver, whenever its call does, unless the call returned an empty buffer over an end character. -/
theorem hplcThreadTurn_of_call {w : W} {r : Received W} (hends : Ends W rev.below [] used r)
    (hr : getSingleFrameFromeHplc checkAfairFromBotom false reads rx rev w = some r) (hok : ¬ (r.result = 0 ∧ r.rev.dataSize = 0)) :
    ∃ r', hplcThreadTurn checkAfairFromBotom false answer645 service reads rx rev w = some r' ∧ r'.reads = r.reads ∧
      Tracks [] r'.rx r'.rev ∧ r'.rev.below = rev.below := by
  simp only [hplcThreadTurn, hr, Option.bind_eq_bind, Option.bind_some]
  cases hends with
  | failed hres ht hb =>
    rw [if_pos (by rw [hres]; decide), if_neg (by rw [hres]; decide)]
    exact ⟨r, rfl, rfl, ht, hb⟩
  | is645 hres hs hb =>
    rw [if_pos (by rw [hres]; decide), if_pos hres]
    exact ⟨_, rfl, rfl, tracks_clearData r.rx hs, hb⟩
  | underflow hres hb hd => exact absurd ⟨hres, hd⟩ hok
  | complete hres seg' skipped hs hc hread hb =>
    obtain ⟨h12, hlt⟩ := hc.dataSize hs
    rw [if_neg (not_not.mpr hres), priveDataAnalysis_eq r.rev (by omega) (by omega)]
    by_cases hgood : FcsGood (front r.rev.priveData (r.rev.dataSize - 1))
    · rw [if_pos hgood]
      simp only [Option.bind_some]
      split_ifs with h1 h2 h2
      · exact absurd h2 (by decide)
      · exact ⟨_, rfl, rfl, tracks_clearData r.rx hs.size, hb⟩
      · exact ⟨_, rfl, rfl, tracks_clearData r.rx hs.size, hb⟩
      · exact absurd rfl h2
    · rw [if_neg hgood]
      simp only [Option.bind_some]
      rw [if_neg (by decide)]
      exact ⟨_, rfl, rfl, tracks_clearData r.rx hs.size, hb⟩

/-- A turn that ends leaves a receiver that has collected nothing. -/
theorem hplcThreadTurn_clean {w : W} {r : Received W} (h : Tracks [] rx rev)
    (hr : hplcThreadTurn checkAfairFromBotom false answer645 service reads rx rev w = some r) :
    (∃ used, reads = used ++ r.reads) ∧ Tracks [] r.rx r.rev ∧ r.rev.below = rev.below := by
  have hcall := hr
  rw [hplcThreadTurn, Option.bind_eq_bind, Option.bind_eq_some_iff] at hcall
  obtain ⟨c, hc, hturn⟩ := hcall
  obtain ⟨used, _, hsplit, hends⟩ := receiveLoop_ends checkAfairFromBotom reads 0 (checkAfairFromBotom w) h hc
  have hok : ¬ (c.result = 0 ∧ c.rev.dataSize = 0) := by
    rintro ⟨hres, hd⟩
    rw [if_neg (not_not.mpr hres), priveDataAnalysis_none c.rev (by omega)] at hturn
    cases hturn
  obtain ⟨r', hr', hreads, ht, hb⟩ := hplcThreadTurn_of_call checkAfairFromBotom answer645 service hends hc hok
  rw [hr] at hr'
  cases hr'
  exact ⟨⟨used, by rw [hsplit, hreads]⟩, ht, hb⟩

/-- The run lemma of the thread: every call of the receiver starts with nothing collected. -/
theorem hplcThreadTurns_clean (n : Nat) {w : W} {r : Received W} (h : Tracks [] rx rev)
    (hr : hplcThreadTurns checkAfairFromBotom false answer645 service n reads rx rev w = some r) :
    (∃ used, reads = used ++ r.reads) ∧ Tracks [] r.rx r.rev ∧ r.rev.below = rev.below := by
  induction n generalizing reads rx rev w with
  | zero =>
    cases hr
    exact ⟨⟨[], rfl⟩, h, rfl⟩
  | succ n ih =>
    rw [hplcThreadTurns, Option.bind_eq_bind, Option.bind_eq_some_iff] at hr
    obtain ⟨s, hs, hrest⟩ := hr
    obtain ⟨⟨used, hused⟩, ht, hb⟩ := hplcThreadTurn_clean checkAfairFromBotom answer645 service h hs
    obtain ⟨⟨used', hused'⟩, ht', hb'⟩ := ih ht hrest
    exact ⟨⟨used ++ used', by rw [hused, hused', List.append_assoc]⟩, ht', hb'.trans hb⟩

theorem tracks_start (des : CharPointDataManage) : Tracks [] rxStart (initCharPointDataManage des) := by
  refine ⟨⟨rfl, rfl, ?_⟩, ⟨by simp, by simp, by simp⟩, rfl, rfl, rfl, rfl⟩
  simp [CharPointDataManage.contents, initCharPointDataManage, kept]

end EnergyRouter
