import EnergyRouter.Lemmas.Control
import EnergyRouter.Lib.EventMask
import EnergyRouter.Lib.Runs

/-!
# Commands are handled once

Commands posted by the 698 thread and taken by the energy control: when every one of them is handled exactly once.
-/

namespace EnergyRouter

open EventMask Runs

variable {W : Type}

/-! ## Bits -/

/-- The bit of an event in the mask. -/
def StrategyMask.bits (m : StrategyMask) (e : CtrlEvent) : Bool := m.strategyEvent.getLsbD e.bit

theorem CtrlEvent.bit_injective {a b : CtrlEvent} (h : a.bit = b.bit) : a = b := by
  cases a <;> cases b <;> first | rfl | cases h

theorem CtrlEvent.bit_lt (e : CtrlEvent) : e.bit < 7 := by
  cases e <;> decide

theorem CtrlEvent.exists_bit : ∀ i < 7, ∃ e : CtrlEvent, e.bit = i
  | 0, _ => ⟨.chgPlanIssue, rfl⟩
  | 1, _ => ⟨.chgPlanIssueGet, rfl⟩
  | 2, _ => ⟨.chgPlanAdjust, rfl⟩
  | 3, _ => ⟨.startChg, rfl⟩
  | 4, _ => ⟨.stopChg, rfl⟩
  | 5, _ => ⟨.powerAdj, rfl⟩
  | 6, _ => ⟨.askState, rfl⟩

theorem CtrlEvent.getLsbD_event (e d : CtrlEvent) : e.event.getLsbD d.bit = decide (d = e) := by
  cases e <;> cases d <;> decide

/-! ## One case -/

/-- A case that runs to its end has handled its command and left the mask alone. -/
theorem ctrlCase_spec (a : CtrlActions W) {fetch ack : CommCmd} {e : CtrlEvent} {accepted : Bool} {v : Finding}
    {s s' : EnergyControl W} (h : ctrlCase a fetch ack e accepted v s = some s') :
    s'.handled = s.handled ++ [e] ∧ s'.mask = s.mask := by
  unfold ctrlCase at h
  obtain ⟨⟨_, hplc⟩, -, h⟩ := Option.bind_eq_some_iff.mp h
  cases accepted with
  | true =>
    cases h
    exact ⟨rfl, rfl⟩
  | false =>
    obtain ⟨⟨_, hplc'⟩, -, h⟩ := Option.bind_eq_some_iff.mp h
    cases h
    exact ⟨rfl, rfl⟩

/-- A case whose commands `CtrlUnit_RecResp` knows runs to its end exactly when the port's flags are clear. -/
theorem ctrlCase_outcome (a : CtrlActions W) {fetch ack : CommCmd} {c d : Nat × Bool} (hfetch : recCase fetch = some c)
    (hack : recCase ack = some d) (e : CtrlEvent) (accepted : Bool) (v : Finding) (s : EnergyControl W) :
    Outcome (ctrlCase a fetch ack e accepted v s) s.hplc.Unlocked fun s' => s'.handled = s.handled ++ [e] ∧ s'.mask = s.mask := by
  refine .of_spec ?_ ?_ fun s' => ctrlCase_spec a
  · intro hs
    unfold ctrlCase
    simp only [ctrlUnitRecResp_of_case a.copy hs hfetch, Option.bind_eq_bind, Option.bind_some]
    cases accepted with
    | true => exact ⟨_, rfl⟩
    | false =>
      simp only [Bool.false_eq_true, if_false]
      rw [ctrlUnitRecResp_of_case a.copy ⟨rfl, rfl⟩ hack]
      exact ⟨_, rfl⟩
  · intro hs
    unfold ctrlCase
    rw [ctrlUnitRecResp_locked a.copy hs]
    rfl

/-- A power adjustment keeps the port's flags: it runs to its end exactly when they are clear and nothing is answered. -/
theorem ctrlCase_powerAdj_outcome (a : CtrlActions W) (accepted : Bool) (v : Finding) (s : EnergyControl W) :
    Outcome (ctrlCase a .powerAdj .powerAdjAck .powerAdj accepted v s) (s.hplc.Unlocked ∧ accepted = true)
      fun s' => s'.handled = s.handled ++ [.powerAdj] ∧ s'.mask = s.mask := by
  refine .of_spec ?_ ?_ fun s' => ctrlCase_spec a
  · rintro ⟨hs, rfl⟩
    unfold ctrlCase
    rw [ctrlUnitRecResp_default a.copy hs rfl]
    exact ⟨_, rfl⟩
  · intro hnot
    unfold ctrlCase
    by_cases hs : s.hplc.Unlocked
    · have hrefused : accepted = false := by simpa [hs] using hnot
      subst hrefused
      simp only [ctrlUnitRecResp_default a.copy hs (show recCase .powerAdj = none from rfl), Option.bind_eq_bind,
        Option.bind_some, Bool.false_eq_true, if_false]
      rw [ctrlUnitRecResp_locked a.copy (fun hfree => by cases hfree.1)]
      rfl
    · rw [ctrlUnitRecResp_locked a.copy hs]
      rfl

/-! ## Runs of posts and polls -/

/-- The energy control with the commands posted so far. -/
structure Commanding (W : Type) where
  ctrl : EnergyControl W
  posted : List CtrlEvent

/-- What the two threads do: the 698 thread posts, the energy control polls and finds something about the command it takes. -/
inductive CommandOp
  | post (e : CtrlEvent)
  | poll (v : Finding)
  deriving DecidableEq, Repr

/-- A call of `strategy_event_send` or of `CtrlData_RecProcess`. -/
def Commanding.step (a : CtrlActions W) (t : Commanding W) : CommandOp → Option (Commanding W)
  | .post e => (strategyEventSend e t.ctrl.mask).map fun mask => ⟨{ t.ctrl with mask := mask }, t.posted ++ [e]⟩
  | .poll v => (ctrlDataRecProcess a v t.ctrl).map fun ctrl => ⟨ctrl, t.posted⟩

/-- What is asked: every command posted was handled once, except for those still pending, and after a poll nothing is pending. -/
def HandledOnce (op : CommandOp) (t : Commanding W) : Prop :=
  Balanced t.posted t.ctrl.handled t.ctrl.mask.bits ∧ ∀ v, op = .poll v → ∀ e, t.ctrl.mask.bits e = false

/-- A command is posted only when it is not pending. At a poll nothing is, or the port's flags are clear and one command that will
be accepted is. -/
def CommandAllowed (t : Commanding W) : CommandOp → Prop
  | .post e => t.ctrl.mask.bits e = false
  | .poll v => t.ctrl.mask.strategyEvent = 0 ∨ t.ctrl.hplc.Unlocked ∧
      (t.ctrl.mask.strategyEvent = CtrlEvent.startChg.event ∨ t.ctrl.mask.strategyEvent = CtrlEvent.stopChg.event ∨
        t.ctrl.mask.strategyEvent = CtrlEvent.powerAdj.event ∧ (!v.faultTotal && v.assetOk) = true)

instance (t : Commanding W) : ∀ op, Decidable (CommandAllowed t op)
  | .post _ => inferInstanceAs (Decidable (_ = _))
  | .poll _ => inferInstanceAs (Decidable (_ ∨ _))

/-- The balance, the mask's own flags clear, and no bit set that is no event's. -/
structure CommandInv (t : Commanding W) : Prop where
  balanced : Balanced t.posted t.ctrl.handled t.ctrl.mask.bits
  free : t.ctrl.mask.Free
  small : ∀ i, 7 ≤ i → t.ctrl.mask.strategyEvent.getLsbD i = false

theorem CommandInv.eq_zero {t : Commanding W} (h : CommandInv t) (hbits : ∀ e, t.ctrl.mask.bits e = false) :
    t.ctrl.mask.strategyEvent = 0 := by
  apply BitVec.eq_of_getLsbD_eq
  intro i _
  rw [BitVec.ofNat_eq_ofNat, BitVec.getLsbD_zero]
  rcases Nat.lt_or_ge i 7 with hi | hi
  · obtain ⟨e, rfl⟩ := CtrlEvent.exists_bit i hi
    exact hbits e
  · exact h.small i hi

theorem CommandInv.post_iff (a : CtrlActions W) {t : Commanding W} (h : CommandInv t) (e : CtrlEvent) :
    CommandAllowed t (.post e) ↔ ∃ t', t.step a (.post e) = some t' ∧ HandledOnce (.post e) t' := by
  have hstep : t.step a (.post e) =
      some ⟨{ t.ctrl with mask := ⟨false, false, t.ctrl.mask.strategyEvent ||| e.event⟩ }, t.posted ++ [e]⟩ := by
    rw [Commanding.step, strategyEventSend, if_pos h.free, Option.map_some]
  have hself : (StrategyMask.mk false false (t.ctrl.mask.strategyEvent ||| e.event)).bits e = true :=
    getLsbD_or_bit_self _ (by have := e.bit_lt; omega)
  have hother : ∀ d, d ≠ e →
      (StrategyMask.mk false false (t.ctrl.mask.strategyEvent ||| e.event)).bits d = t.ctrl.mask.bits d :=
    fun d hd => getLsbD_or_bit_of_ne _ fun hbit => hd (CtrlEvent.bit_injective hbit.symm)
  have hiff := balanced_post_iff h.balanced hself hother
  rw [hstep]
  constructor
  · intro hallowed
    exact ⟨_, rfl, hiff.mpr hallowed, nofun⟩
  · rintro ⟨t', ht', hbalanced, -⟩
    cases ht'
    exact hiff.mp hbalanced

/-- When the only command pending is handled and the mask cleared, all is as asked. -/
theorem CommandInv.handled {t : Commanding W} (h : CommandInv t) {e : CtrlEvent} (hmask : t.ctrl.mask.strategyEvent = e.event)
    {s' : EnergyControl W} (hhandled : s'.handled = t.ctrl.handled ++ [e]) (hcleared : s'.mask = ⟨false, false, 0⟩)
    (v : Finding) : HandledOnce (.poll v) ⟨s', t.posted⟩ := by
  have hbits : ∀ d, t.ctrl.mask.bits d = decide (d = e) := by
    intro d
    rw [StrategyMask.bits, hmask, CtrlEvent.getLsbD_event]
  have hclear : ∀ d, s'.mask.bits d = false := by
    intro d
    rw [hcleared]
    exact BitVec.getLsbD_zero
  refine ⟨?_, fun _ _ d => hclear d⟩
  simp only [hhandled]
  refine Balanced.serve h.balanced (by rw [hbits, decide_eq_true rfl]) (hclear e) ?_
  intro d hd
  rw [hclear, hbits, decide_eq_false hd]

/-- A poll whose case runs to its end exactly under a condition is as asked exactly under it. -/
theorem CommandInv.case_iff {t : Commanding W} (h : CommandInv t) {e : CtrlEvent}
    (hmask : t.ctrl.mask.strategyEvent = e.event) {call : Option (EnergyControl W)} {runs : Prop}
    (hcall : Outcome call runs fun s' => s'.handled = t.ctrl.handled ++ [e] ∧ s'.mask = ⟨false, false, 0⟩) (v : Finding) :
    runs ↔ ∃ t', call.map (fun ctrl => (⟨ctrl, t.posted⟩ : Commanding W)) = some t' ∧ HandledOnce (.poll v) t' := by
  refine (hcall.map _).iff ?_
  rintro t' ⟨s', ⟨hhandled, hcleared⟩, rfl⟩
  exact h.handled hmask hhandled hcleared v

theorem CommandInv.poll_iff (a : CtrlActions W) {t : Commanding W} (h : CommandInv t) (v : Finding) :
    CommandAllowed t (.poll v) ↔ ∃ t', t.step a (.poll v) = some t' ∧ HandledOnce (.poll v) t' := by
  rw [Commanding.step, ctrlDataRecProcess_eq a v h.free]
  by_cases hstart : t.ctrl.mask.strategyEvent = CtrlEvent.startChg.event
  · rw [if_pos hstart]
    refine Iff.trans (b := t.ctrl.hplc.Unlocked) ?_ (h.case_iff hstart (ctrlCase_outcome a rfl rfl .startChg _ v _) v)
    · rw [CommandAllowed, hstart]
      constructor
      · rintro (hzero | ⟨hs, -⟩)
        · exact absurd hzero (by decide)
        · exact hs
      · exact fun hs => .inr ⟨hs, .inl rfl⟩
  by_cases hstop : t.ctrl.mask.strategyEvent = CtrlEvent.stopChg.event
  · rw [if_neg hstart, if_pos hstop]
    refine Iff.trans (b := t.ctrl.hplc.Unlocked) ?_ (h.case_iff hstop (ctrlCase_outcome a rfl rfl .stopChg _ v _) v)
    · rw [CommandAllowed, hstop]
      constructor
      · rintro (hzero | ⟨hs, -⟩)
        · exact absurd hzero (by decide)
        · exact hs
      · exact fun hs => .inr ⟨hs, .inr (.inl rfl)⟩
  by_cases hpower : t.ctrl.mask.strategyEvent = CtrlEvent.powerAdj.event
  · rw [if_neg hstart, if_neg hstop, if_pos hpower]
    refine Iff.trans (b := t.ctrl.hplc.Unlocked ∧ (!v.faultTotal && v.assetOk) = true) ?_
      (h.case_iff hpower (ctrlCase_powerAdj_outcome a _ v _) v)
    · rw [CommandAllowed, hpower]
      constructor
      · rintro (hzero | ⟨hs, hvalue | hvalue | ⟨-, haccepted⟩⟩)
        · exact absurd hzero (by decide)
        · exact absurd hvalue (by decide)
        · exact absurd hvalue (by decide)
        · exact ⟨hs, haccepted⟩
      · exact fun ⟨hs, haccepted⟩ => .inr ⟨hs, .inr (.inr ⟨rfl, haccepted⟩)⟩
  · rw [if_neg hstart, if_neg hstop, if_neg hpower]
    constructor
    · rintro (hzero | ⟨-, hvalue | hvalue | ⟨hvalue, -⟩⟩)
      · refine ⟨_, rfl, ?_, fun _ _ e => BitVec.getLsbD_zero⟩
        have hbits : t.ctrl.mask.bits = (⟨false, false, 0⟩ : StrategyMask).bits := by
          funext e
          rw [StrategyMask.bits, StrategyMask.bits, hzero]
        rw [← hbits]
        exact h.balanced
      · exact absurd hvalue hstart
      · exact absurd hvalue hstop
      · exact absurd hvalue hpower
    · rintro ⟨t', ht', hbalanced, -⟩
      -- the default dropped whatever was pending, so nothing was
      cases ht'
      exact .inl (h.eq_zero fun e => Balanced.of_dropped h.balanced hbalanced BitVec.getLsbD_zero)

theorem CommandInv.step (a : CtrlActions W) {t t' : Commanding W} {op : CommandOp} (h : CommandInv t)
    (hstep : t.step a op = some t') (hgood : HandledOnce op t') : CommandInv t' := by
  cases op with
  | post e =>
    rw [Commanding.step, strategyEventSend, if_pos h.free, Option.map_some] at hstep
    cases hstep
    refine ⟨hgood.1, ⟨rfl, rfl⟩, ?_⟩
    intro i hi
    have hne : e.bit ≠ i := by
      have := e.bit_lt
      omega
    exact (getLsbD_or_bit_of_ne _ hne).trans (h.small i hi)
  | poll v =>
    obtain ⟨ctrl, hctrl, rfl⟩ := Option.map_eq_some_iff.mp hstep
    have hcleared : ctrl.mask = ⟨false, false, 0⟩ := by
      rw [ctrlDataRecProcess_eq a v h.free] at hctrl
      split_ifs at hctrl
      · exact (ctrlCase_spec a hctrl).2
      · exact (ctrlCase_spec a hctrl).2
      · exact (ctrlCase_spec a hctrl).2
      · cases hctrl
        rfl
    refine ⟨hgood.1, ?_, ?_⟩
    · rw [hcleared]
      exact ⟨rfl, rfl⟩
    · intro i _
      rw [hcleared]
      exact BitVec.getLsbD_zero

/-- Over every run of posts and polls from an empty mask: every poll returns and every command posted before it was handled exactly
once, exactly when every step of the run is allowed in the state it is taken in. -/
theorem commands_handled_once_iff (a : CtrlActions W) {s : EnergyControl W} (hmask : s.mask = ⟨false, false, 0⟩)
    (hhandled : s.handled = []) (ops : List CommandOp) :
    Meets (Commanding.step a) CommandAllowed ⟨s, []⟩ ops ↔ Keeps (Commanding.step a) HandledOnce ⟨s, []⟩ ops := by
  have hinv : CommandInv (⟨s, []⟩ : Commanding W) := by
    refine ⟨?_, ?_, ?_⟩
    · intro e
      simp only [hhandled, hmask, StrategyMask.bits, BitVec.ofNat_eq_ofNat, BitVec.getLsbD_zero, Bool.toNat_false, Nat.add_zero]
    · simp only [hmask]
      exact ⟨rfl, rfl⟩
    · intro i _
      simp only [hmask, BitVec.ofNat_eq_ofNat, BitVec.getLsbD_zero]
  refine meets_iff_keeps ?_ (fun t op t' ht hstep hgood => ht.step a hstep hgood) hinv ops
  intro t op ht
  cases op with
  | post e => exact ht.post_iff a e
  | poll v => exact ht.poll_iff a v

/-- The energy control at power-up. -/
def idleControl : EnergyControl Unit := ⟨⟨false, false, 0⟩, idleHplc, false, false, false, []⟩

/-- Cases that do nothing else. -/
def quietActions : CtrlActions Unit := ⟨fun _ w => w, fun _ w => w, fun _ _ w => w⟩

/-- A start, a refused stop and a power adjustment, polled one by one, are each handled once. -/
theorem commands_handled_once_one_by_one :
    Keeps (Commanding.step quietActions) HandledOnce ⟨idleControl, []⟩
      [.post .startChg, .poll ⟨false, true, true⟩, .post .stopChg, .poll ⟨true, true, true⟩, .post .powerAdj,
        .poll ⟨false, true, true⟩] :=
  (commands_handled_once_iff quietActions rfl rfl _).mp (by decide)

/-- A start and a stop posted between two polls: the poll returns, neither is handled and neither is pending. -/
theorem start_and_stop_lost :
    (((Commanding.step quietActions ⟨idleControl, []⟩ (.post .startChg)).bind fun t =>
      t.step quietActions (.post .stopChg)).bind fun t => t.step quietActions (.poll ⟨false, true, true⟩)).map
        (fun t => (t.posted, t.ctrl.handled, t.ctrl.mask.strategyEvent)) = some ([.startChg, .stopChg], [], 0) ∧
    ¬ Keeps (Commanding.step quietActions) HandledOnce ⟨idleControl, []⟩
      [.post .startChg, .post .stopChg, .poll ⟨false, true, true⟩] := by
  constructor
  · decide
  · rintro ⟨t₁, h₁, -, t₂, h₂, -, t₃, h₃, ⟨hbalanced, -⟩, -⟩
    cases h₁
    cases h₂
    cases h₃
    exact absurd (hbalanced .startChg) (by decide)

end EnergyRouter
