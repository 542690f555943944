import EnergyRouter.Lemmas.Fcs

/-!
# The check bytes

A block that `tryfcs16` closed passes the checks of a receiver. The check is the bit-serial one with the polynomial 0x8408, so it
detects every burst of errors no longer than the register.
-/

namespace EnergyRouter

open Buffer TableCrc

/-- `tryfcs16` succeeds on every buffer with room for the two check bytes: it changes nothing but these, and both receiver checks
over the closed block then succeed. -/
theorem tryfcs16_closes_block {n : Nat} (cp : Vector Byte n) (len : Int) (h1 : 1 ≤ len) (hroom : len + 2 ≤ n)
    (hcs fcs : BitVec 16) :
    ∃ cp', tryfcs16 cp len = some (0, cp') ∧ (∀ i : Nat, (i : Int) ≠ len → (i : Int) ≠ len + 1 → cp'[i]? = cp[i]?) ∧
      hcs698 cp' 1 (len + 1) hcs = some 0 ∧ fcs698 cp' 1 (len + 1) fcs = some 0 := by
  obtain ⟨k, rfl⟩ := Int.eq_ofNat_of_zero_le (by omega : 0 ≤ len)
  have hk : k + 2 ≤ n := by omega
  have hne : front cp k ≠ [] := by
    rw [← List.length_pos_iff, front_length (by omega)]
    omega
  have hgood : FcsGood (front (copyAt cp k (check (fcsOf ((front cp k).drop 1)))) (k + 1 + 1)) := by
    rw [show k + 1 + 1 = k + (check (fcsOf ((front cp k).drop 1))).length from rfl, front_copyAt _ _ _ hk]
    exact fcsGood_append_check hne
  have hcheck : ∀ bad : Int, goodFcs bad (copyAt cp k (check (fcsOf ((front cp k).drop 1)))) 1 ((k : Int) + 1) = some 0 := by
    intro bad
    have := goodFcs_front bad (copyAt cp k (check (fcsOf ((front cp k).drop 1)))) (k + 1) hk
    rw [if_pos hgood] at this
    exact this
  refine ⟨_, tryfcs16_eq cp k (by omega) hk, ?_, hcheck (-1), hcheck (-2)⟩
  intro i hi hi'
  refine getElem?_copyAt cp k _ ?_
  have hlen : (check (fcsOf ((front cp k).drop 1))).length = 2 := rfl
  omega

/-- The address part of a frame, closed: the check bytes of five known bytes. -/
theorem tryfcs16_closes_five :
    ∃ cp', tryfcs16 (#v[0x68, 0x0f, 0x00, 0x43, 0x05, 0, 0] : Vector Byte 7) 5 = some (0, cp') ∧
      (∀ i : Nat, (i : Int) ≠ 5 → (i : Int) ≠ 5 + 1 →
        cp'[i]? = (#v[0x68, 0x0f, 0x00, 0x43, 0x05, 0, 0] : Vector Byte 7)[i]?) ∧
      hcs698 cp' 1 (5 + 1) 0 = some 0 ∧ fcs698 cp' 1 (5 + 1) 0 = some 0 :=
  tryfcs16_closes_block #v[0x68, 0x0f, 0x00, 0x43, 0x05, 0, 0] 5 (by decide) (by decide) 0 0

/-- `pppfcs16` is the bit-serial checksum with the polynomial 0x8408, for every start register and every message. And it detects
every burst: a message whose register is good no longer has a good register once bits were flipped that all lie within sixteen
consecutive bits sent, the lowest bit of each byte first. -/
theorem pppfcs16_detects_bursts :
    (∀ (fcs : BitVec 16) (cp : List Byte) (len : Nat), len ≤ cp.length →
      pppfcs16 fcs cp len = some (BitCrc.run 0x8408 fcs (BitCrc.bitsOf (cp.take len)))) ∧
    ∀ (fcs : BitVec 16) (message errors : List Byte) (start : Nat), errors.length = message.length →
      true ∈ BitCrc.bitsOf errors →
      (∀ i : Nat, (BitCrc.bitsOf errors)[i]? = some true → start ≤ i ∧ i < start + 16) →
      pppfcs16 fcs message message.length = some pppGoodFcs16 →
      pppfcs16 fcs (List.zipWith (· ^^^ ·) message errors) message.length ≠ some pppGoodFcs16 := by
  have hrun : ∀ (fcs : BitVec 16) (cp : List Byte) (len : Nat), len ≤ cp.length →
      pppfcs16 fcs cp len = some (BitCrc.run fcsPoly fcs (BitCrc.bitsOf (cp.take len))) := by
    intro fcs cp len h
    rw [pppfcs16_eq fcs cp len h, BitCrc.crc_eq_run fcsEntry_eq]
  refine ⟨hrun, ?_⟩
  intro fcs message errors start hlen hset hin hgood hbad
  have hcorrupted : (List.zipWith (· ^^^ ·) message errors).length = message.length := by
    rw [List.length_zipWith, hlen, Nat.min_self]
  rw [hrun fcs message _ (Nat.le_refl _), List.take_length] at hgood
  rw [hrun fcs _ _ (Nat.le_of_eq hcorrupted.symm), ← hcorrupted, List.take_length,
    BitCrc.bitsOf_zipWith message errors hlen.symm] at hbad
  have hdetected := BitCrc.run_ne_of_within (by decide : fcsPoly.getLsbD (16 - 1) = true) fcs (BitCrc.bitsOf message)
    (BitCrc.bitsOf errors) (by rw [BitCrc.length_bitsOf, BitCrc.length_bitsOf, hlen]) start hin hset
  exact hdetected (Option.some.inj (hbad.trans hgood.symm))

/-- One byte with its check bytes, and a burst across the border of the first two bytes. -/
theorem pppfcs16_detects_burst_of_three :
    pppfcs16 pppInitFcs16 [0x43, 0xe7, 0x80] 3 = some (BitCrc.run 0x8408 pppInitFcs16 (BitCrc.bitsOf [0x43, 0xe7, 0x80])) ∧
      pppfcs16 pppInitFcs16 [0x43, 0xe7, 0x80] 3 = some pppGoodFcs16 ∧
      pppfcs16 pppInitFcs16 (List.zipWith (· ^^^ ·) [0x43, 0xe7, 0x80] [0x80, 0x03, 0]) 3 ≠ some pppGoodFcs16 := by
  refine ⟨pppfcs16_detects_bursts.1 pppInitFcs16 [0x43, 0xe7, 0x80] 3 (by decide), by decide, ?_⟩
  refine pppfcs16_detects_bursts.2 pppInitFcs16 [0x43, 0xe7, 0x80] [0x80, 0x03, 0] 7 rfl (by decide) ?_ (by decide)
  intro i hi
  have hlen : i < 24 := by
    by_contra hge
    rw [List.getElem?_eq_none (by simpa using hge)] at hi
    cases hi
  have hplace : ∀ i : Fin 24, (BitCrc.bitsOf [0x80, 0x03, 0])[i.val]? = some true → 7 ≤ i.val ∧ i.val < 7 + 16 := by decide
  exact hplace ⟨i, hlen⟩ hi

end EnergyRouter
