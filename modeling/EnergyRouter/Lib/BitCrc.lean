import EnergyRouter.Lib.TableCrc

/-!
# Bit-serial checksums and burst errors

The register of a reflected cyclic checksum takes the message bit by bit. One move is additive in exclusive or, so a corrupted
message changes the register by what the error pattern alone leaves in it. And it loses nothing when the polynomial has its highest
bit, so a trace of an error stays for ever. A table-driven checksum is this one taken a byte at a time.
-/

namespace BitCrc

section

variable {w : Nat} (poly : BitVec w)

/-- One move of the register: the polynomial is folded in when a one falls out. -/
def shift (r : BitVec w) : BitVec w := if r.getLsbD 0 then (r >>> 1) ^^^ poly else r >>> 1

/-- `n` moves of the register. -/
def shifts : Nat → BitVec w → BitVec w
  | 0, r => r
  | n + 1, r => shifts n (shift poly r)

/-- One bit of the message. -/
def feed (r : BitVec w) (b : Bool) : BitVec w := shift poly (r ^^^ (BitVec.ofBool b).setWidth w)

/-- The register after a message, given bit by bit. -/
def run (r : BitVec w) (bits : List Bool) : BitVec w := bits.foldl (feed poly) r

@[simp] theorem run_nil (r : BitVec w) : run poly r [] = r := rfl

@[simp] theorem run_cons (r : BitVec w) (b : Bool) (bits : List Bool) :
    run poly r (b :: bits) = run poly (feed poly r b) bits := rfl

theorem run_append (r : BitVec w) (bits bits' : List Bool) : run poly r (bits ++ bits') = run poly (run poly r bits) bits' :=
  List.foldl_append

/-! ## Moves are additive -/

theorem shift_xor (r s : BitVec w) : shift poly (r ^^^ s) = shift poly r ^^^ shift poly s := by
  unfold shift
  rw [BitVec.getLsbD_xor, BitVec.ushiftRight_xor_distrib]
  cases r.getLsbD 0 <;> cases s.getLsbD 0
  · rfl
  · exact BitVec.xor_assoc _ _ _
  · show (r >>> 1) ^^^ (s >>> 1) ^^^ poly = (r >>> 1) ^^^ poly ^^^ (s >>> 1)
    ac_rfl
  · -- the polynomial was folded in twice
    show (r >>> 1) ^^^ (s >>> 1) = (r >>> 1) ^^^ poly ^^^ ((s >>> 1) ^^^ poly)
    calc (r >>> 1) ^^^ (s >>> 1) = (r >>> 1) ^^^ (s >>> 1) ^^^ (poly ^^^ poly) := by
          rw [BitVec.xor_self, BitVec.xor_zero]
      _ = (r >>> 1) ^^^ poly ^^^ ((s >>> 1) ^^^ poly) := by ac_rfl

theorem shift_zero : shift poly 0#w = 0#w := by
  simp [shift]

theorem shifts_xor (n : Nat) (r s : BitVec w) : shifts poly n (r ^^^ s) = shifts poly n r ^^^ shifts poly n s := by
  induction n generalizing r s with
  | zero => rfl
  | succ n ih => rw [shifts, shift_xor, ih, shifts, shifts]

theorem feed_xor (r s : BitVec w) (a b : Bool) : feed poly (r ^^^ s) (a ^^ b) = feed poly r a ^^^ feed poly s b := by
  have hbit : (BitVec.ofBool (a ^^ b)).setWidth w = (BitVec.ofBool a).setWidth w ^^^ (BitVec.ofBool b).setWidth w := by
    rw [← BitVec.setWidth_xor]
    cases a <;> cases b <;> rfl
  rw [feed, feed, feed, hbit, ← shift_xor]
  congr 1
  ac_rfl

/-- The register after a corrupted message is that after the message, folded with that after the errors. -/
theorem run_xor (r s : BitVec w) (bits errs : List Bool) (h : bits.length = errs.length) :
    run poly (r ^^^ s) (List.zipWith xor bits errs) = run poly r bits ^^^ run poly s errs := by
  induction bits generalizing r s errs with
  | nil =>
    cases errs with
    | nil => rfl
    | cons e errs => cases h
  | cons b bits ih =>
    cases errs with
    | nil => cases h
    | cons e errs =>
      rw [List.zipWith_cons_cons, run_cons, feed_xor]
      exact ih _ _ errs (Nat.succ.inj h)

/-! ## Bits that are all clear only move the register -/

theorem feed_false (r : BitVec w) : feed poly r false = shift poly r := by
  have hzero : (BitVec.ofBool false).setWidth w = 0#w := by simp
  rw [feed, hzero, BitVec.xor_zero]

theorem run_replicate_false (r : BitVec w) (n : Nat) : run poly r (List.replicate n false) = shifts poly n r := by
  induction n generalizing r with
  | zero => rfl
  | succ n ih => rw [List.replicate_succ, run_cons, feed_false, ih, shifts]

theorem shifts_zero (n : Nat) : shifts poly n 0#w = 0#w := by
  induction n with
  | zero => rfl
  | succ n ih => rw [shifts, shift_zero, ih]

/-! ## A few bits are one word -/

/-- The first bits of a message as a word, the first one lowest. -/
def word (w : Nat) : List Bool → BitVec w
  | [] => 0#w
  | b :: bits => (BitVec.ofBool b).setWidth w ^^^ (word w bits <<< 1)

theorem getLsbD_word (bits : List Bool) (i : Nat) : (word w bits).getLsbD i = (decide (i < w) && bits.getD i false) := by
  induction bits generalizing i with
  | nil => simp [word]
  | cons b bits ih =>
    rw [word, BitVec.getLsbD_xor, BitVec.getLsbD_shiftLeft, BitVec.getLsbD_setWidth]
    cases i with
    | zero => simp
    | succ i =>
      have hlow : (BitVec.ofBool b).getLsbD (i + 1) = false := BitVec.getLsbD_of_ge _ _ (by omega)
      rw [hlow, Nat.add_sub_cancel, ih]
      by_cases hw : i + 1 < w
      · simp [hw, Nat.lt_of_succ_lt hw]
      · simp [hw]

theorem shift_shiftLeft (r : BitVec w) (h : r.getLsbD (w - 1) = false) : shift poly (r <<< 1) = r := by
  have hlow : (r <<< 1).getLsbD 0 = false := by simp
  rw [shift, hlow, if_neg (by decide)]
  apply BitVec.eq_of_getLsbD_eq
  intro i hi
  rw [BitVec.getLsbD_ushiftRight, BitVec.getLsbD_shiftLeft, Nat.add_sub_cancel_left]
  by_cases htop : i = w - 1
  · rw [htop, h, Bool.and_false]
  · simp [show 1 + i < w by omega]

theorem shifts_shiftLeft (n : Nat) (r : BitVec w) (h : ∀ i : Nat, w ≤ i + n → r.getLsbD i = false) :
    shifts poly n (r <<< n) = r := by
  induction n with
  | zero => simp [shifts]
  | succ n ih =>
    have htop : (r <<< n).getLsbD (w - 1) = false := by
      rw [BitVec.getLsbD_shiftLeft, h _ (by omega), Bool.and_false]
    rw [BitVec.shiftLeft_add, shifts, shift_shiftLeft poly _ htop]
    exact ih fun i hi => h i (by omega)

/-- No more bits than the register is wide may be folded in all at once. -/
theorem run_eq_shifts (r : BitVec w) (bits : List Bool) (h : bits.length ≤ w) :
    run poly r bits = shifts poly bits.length (r ^^^ word w bits) := by
  induction bits generalizing r with
  | nil => rw [word, BitVec.xor_zero]; rfl
  | cons b bits ih =>
    rw [List.length_cons] at h
    have hrest : shift poly (word w bits <<< 1) = word w bits := by
      apply shift_shiftLeft
      rw [getLsbD_word, List.getD_eq_getElem?_getD, List.getElem?_eq_none (by omega)]
      exact Bool.and_false _
    rw [run_cons, ih _ (by omega), List.length_cons, shifts, word, ← BitVec.xor_assoc, shift_xor, hrest]
    rfl

/-! ## Nothing is lost -/

variable {poly}

/-- With the highest bit in the polynomial, only the empty register moves to the empty register. -/
theorem eq_zero_of_shift (hpoly : poly.getLsbD (w - 1) = true) {r : BitVec w} (h : shift poly r = 0#w) : r = 0#w := by
  have hw : 0 < w := by
    by_contra hzero
    rw [BitVec.getLsbD_of_ge _ _ (by omega)] at hpoly
    cases hpoly
  unfold shift at h
  cases hlow : r.getLsbD 0 with
  | true =>
    -- the highest bit of the moved register is the polynomial's
    exfalso
    rw [hlow, if_pos rfl] at h
    have htop := congrArg (fun x : BitVec w => x.getLsbD (w - 1)) h
    simp only [BitVec.getLsbD_xor, hpoly, BitVec.getLsbD_ushiftRight] at htop
    rw [BitVec.getLsbD_of_ge r (1 + (w - 1)) (by omega)] at htop
    simp at htop
  | false =>
    rw [hlow, if_neg (by decide)] at h
    apply BitVec.eq_of_getLsbD_eq
    intro i _
    cases i with
    | zero => simpa using hlow
    | succ i =>
      have hbit := congrArg (fun x : BitVec w => x.getLsbD i) h
      simpa [Nat.add_comm] using hbit

theorem eq_zero_of_shifts (hpoly : poly.getLsbD (w - 1) = true) (n : Nat) {r : BitVec w} (h : shifts poly n r = 0#w) : r = 0#w := by
  induction n generalizing r with
  | zero => exact h
  | succ n ih => exact eq_zero_of_shift hpoly (ih h)

/-- A burst no longer than the register is wide leaves a trace, wherever it stands. -/
theorem run_burst_ne_zero (hpoly : poly.getLsbD (w - 1) = true) (before after : Nat) (burst : List Bool)
    (hlen : burst.length ≤ w) (hset : true ∈ burst) :
    run poly 0#w (List.replicate before false ++ burst ++ List.replicate after false) ≠ 0#w := by
  intro hzero
  rw [run_append, run_append, run_replicate_false, run_replicate_false, shifts_zero] at hzero
  have hburst := eq_zero_of_shifts hpoly after hzero
  rw [run_eq_shifts poly 0#w burst hlen] at hburst
  have hword := eq_zero_of_shifts hpoly _ hburst
  rw [BitVec.zero_xor] at hword
  obtain ⟨i, hi, hbit⟩ := List.mem_iff_getElem.mp hset
  have hclear := congrArg (fun x : BitVec w => x.getLsbD i) hword
  simp only [getLsbD_word, List.getD_eq_getElem?_getD, List.getElem?_eq_getElem hi, hbit] at hclear
  simp [show i < w by omega] at hclear

/-- An error pattern within as many consecutive places as the register is wide leaves a trace. -/
theorem run_ne_zero_of_within (hpoly : poly.getLsbD (w - 1) = true) (errs : List Bool) (start : Nat)
    (hin : ∀ i : Nat, errs[i]? = some true → start ≤ i ∧ i < start + w) (hset : true ∈ errs) : run poly 0#w errs ≠ 0#w := by
  have hclear : ∀ part : List Bool, true ∉ part → part = List.replicate part.length false := by
    intro part hpart
    refine List.eq_replicate_iff.mpr ⟨rfl, ?_⟩
    intro b hb
    cases b with
    | false => rfl
    | true => exact absurd hb hpart
  -- nothing before the window, nothing after it
  have hbefore : true ∉ errs.take start := by
    intro hmem
    obtain ⟨i, hi⟩ := List.mem_iff_getElem?.mp hmem
    rw [List.getElem?_take] at hi
    split at hi
    · have := (hin i hi).1
      omega
    · cases hi
  have hafter : true ∉ (errs.drop start).drop w := by
    intro hmem
    obtain ⟨i, hi⟩ := List.mem_iff_getElem?.mp hmem
    rw [List.drop_drop, List.getElem?_drop] at hi
    have := (hin _ hi).2
    omega
  have hsplit : errs = errs.take start ++ (errs.drop start).take w ++ (errs.drop start).drop w := by
    rw [List.append_assoc, List.take_append_drop, List.take_append_drop]
  have hburst : true ∈ (errs.drop start).take w := by
    rw [hsplit, List.mem_append, List.mem_append] at hset
    rcases hset with (hset | hset) | hset
    · exact absurd hset hbefore
    · exact hset
    · exact absurd hset hafter
  rw [hsplit, hclear _ hbefore, hclear _ hafter]
  exact run_burst_ne_zero hpoly _ _ _ (by simp) hburst

/-- Burst errors are detected: the register cannot end where it would have ended. -/
theorem run_ne_of_within (hpoly : poly.getLsbD (w - 1) = true) (r : BitVec w) (bits errs : List Bool)
    (hlen : bits.length = errs.length) (start : Nat)
    (hin : ∀ i : Nat, errs[i]? = some true → start ≤ i ∧ i < start + w) (hset : true ∈ errs) :
    run poly r (List.zipWith xor bits errs) ≠ run poly r bits := by
  intro heq
  have hsum := run_xor poly r 0#w bits errs hlen
  rw [BitVec.xor_zero, heq] at hsum
  apply run_ne_zero_of_within hpoly errs start hin hset
  calc run poly 0#w errs = run poly r bits ^^^ (run poly r bits ^^^ run poly 0#w errs) := by
        rw [← BitVec.xor_assoc, BitVec.xor_self, BitVec.zero_xor]
    _ = 0#w := by rw [← hsum, BitVec.xor_self]

end

/-! ## Messages of bytes -/

/-- The bits of a byte in the order they are sent, the lowest first. -/
def byteBits (b : BitVec 8) : List Bool := (List.range 8).map b.getLsbD

/-- The bits of a message in the order they are sent. -/
def bitsOf (bs : List (BitVec 8)) : List Bool := bs.flatMap byteBits

@[simp] theorem bitsOf_nil : bitsOf [] = [] := rfl

@[simp] theorem bitsOf_cons (b : BitVec 8) (bs : List (BitVec 8)) : bitsOf (b :: bs) = byteBits b ++ bitsOf bs := rfl

@[simp] theorem length_byteBits (b : BitVec 8) : (byteBits b).length = 8 := by
  simp [byteBits]

@[simp] theorem length_bitsOf (bs : List (BitVec 8)) : (bitsOf bs).length = 8 * bs.length := by
  induction bs with
  | nil => rfl
  | cons b bs ih => rw [bitsOf_cons, List.length_append, ih, length_byteBits, List.length_cons]; omega

theorem byteBits_xor (a b : BitVec 8) : byteBits (a ^^^ b) = List.zipWith xor (byteBits a) (byteBits b) := by
  rw [byteBits, byteBits, byteBits, List.zipWith_map, List.zipWith_self]
  exact List.map_congr_left fun i _ => BitVec.getLsbD_xor

/-- The bits of a corrupted message are those of the message, folded with the errors. -/
theorem bitsOf_zipWith (bs errs : List (BitVec 8)) (h : bs.length = errs.length) :
    bitsOf (List.zipWith (· ^^^ ·) bs errs) = List.zipWith xor (bitsOf bs) (bitsOf errs) := by
  induction bs generalizing errs with
  | nil =>
    cases errs with
    | nil => rfl
    | cons e errs => cases h
  | cons b bs ih =>
    cases errs with
    | nil => cases h
    | cons e errs =>
      rw [List.zipWith_cons_cons, bitsOf_cons, ih errs (Nat.succ.inj h), byteBits_xor, bitsOf_cons, bitsOf_cons,
        List.zipWith_append (by simp)]

/-- Errors that all lie within `w` bits in a row. -/
structure Burst (w : Nat) (errors : List (BitVec 8)) : Prop where
  flips : true ∈ bitsOf errors
  short : ∃ start, ∀ i : Nat, (bitsOf errors)[i]? = some true → start ≤ i ∧ i < start + w

/-- Only the bits there are have to be looked at. -/
theorem Burst.of_forall {errors : List (BitVec 8)} (hflips : true ∈ bitsOf errors) (start : Nat)
    (h : ∀ i < 8 * errors.length, (bitsOf errors)[i]? = some true → start ≤ i ∧ i < start + w) : Burst w errors :=
  ⟨hflips, start, fun i hi => h i (length_bitsOf errors ▸ (List.getElem?_eq_some_iff.mp hi).1) hi⟩

theorem word_byteBits (b : BitVec 8) : word 16 (byteBits b) = b.setWidth 16 := by
  apply BitVec.eq_of_getLsbD_eq
  intro i hi
  rw [getLsbD_word, BitVec.getLsbD_setWidth, byteBits, List.getD_eq_getElem?_getD, List.getElem?_map]
  by_cases h8 : i < 8
  · simp [h8]
  · rw [List.getElem?_eq_none (by simp; omega), BitVec.getLsbD_of_ge b i (by omega)]
    simp

/-! ## The table -/

section

variable {poly : BitVec 16} {tab : BitVec 8 → BitVec 16} (htab : ∀ i, tab i = shifts poly 8 (i.setWidth 16))
include htab

/-- One step of a table checksum is the eight bits of the byte. -/
theorem step_eq_run (r : BitVec 16) (b : BitVec 8) : TableCrc.step tab r b = run poly r (byteBits b) := by
  have hsplit : r ^^^ b.setWidth 16 = (r >>> 8 <<< 8) ^^^ (TableCrc.lo r ^^^ b).setWidth 16 := by
    apply BitVec.eq_of_getLsbD_eq
    intro i hi
    simp only [BitVec.getLsbD_xor, BitVec.getLsbD_setWidth, BitVec.getLsbD_shiftLeft, BitVec.getLsbD_ushiftRight,
      TableCrc.lo, hi]
    by_cases h8 : i < 8
    · simp [h8, BitVec.getLsbD_eq_getElem hi]
    · simp [h8, BitVec.getLsbD_of_ge b i (by omega), show 8 + (i - 8) = i by omega]
  have hhigh : shifts poly 8 (r >>> 8 <<< 8) = r >>> 8 := by
    apply shifts_shiftLeft
    intro i hi
    rw [BitVec.getLsbD_ushiftRight]
    exact BitVec.getLsbD_of_ge _ _ (by omega)
  rw [run_eq_shifts poly r _ (by simp), length_byteBits, word_byteBits, hsplit, shifts_xor, hhigh, TableCrc.step, htab]

/-- A table checksum is the bit-serial one over the bits of the message. -/
theorem crc_eq_run (r : BitVec 16) (bs : List (BitVec 8)) : TableCrc.crc tab r bs = run poly r (bitsOf bs) := by
  induction bs generalizing r with
  | nil => rfl
  | cons b bs ih => rw [TableCrc.crc_cons, step_eq_run htab, ih, bitsOf_cons, run_append]

/-- A table checksum tells a message from the same with a burst of errors. -/
theorem crc_ne_of_burst (hpoly : poly.getLsbD 15 = true) (r : BitVec 16) {message errors : List (BitVec 8)}
    (hlen : errors.length = message.length) (hburst : Burst 16 errors) :
    TableCrc.crc tab r (List.zipWith (· ^^^ ·) message errors) ≠ TableCrc.crc tab r message := by
  obtain ⟨start, hshort⟩ := hburst.short
  rw [crc_eq_run htab, crc_eq_run htab, bitsOf_zipWith message errors hlen.symm]
  exact run_ne_of_within hpoly r _ _ (by rw [length_bitsOf, length_bitsOf, hlen]) start hshort hburst.flips

end

end BitCrc
