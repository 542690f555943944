import EnergyRouter.Theorems.Sessions

/-!
# Counting confirmations

The events of a confirmed start and of a confirmed stop against the turns of the task that end a charge. A message that starts the
system again starts the count again.
-/

namespace EnergyRouter

open Runs

/-! ## The count -/

/-- The pile, the turns of the task in the state of the end since the system started, and the number of events posted before. -/
structure Confirmations where
  pile : Pile
  ended : Nat
  before : Nat

/-- The events posted since the system started. -/
def Confirmations.posted (t : Confirmations) : List PileEvent := t.pile.events.drop t.before

def Confirmations.starts (t : Confirmations) : Nat := t.posted.count .chargeStartOK

def Confirmations.stops (t : Confirmations) : Nat := t.posted.count .chargeStopOK

/-- One step. -/
def Confirmations.step (t : Confirmations) : PileOp → Option Confirmations
  | .receive msg =>
    (canV110RecProtocal msg t.pile).map fun pile => if msg.Restarts then ⟨pile, 0, pile.events.length⟩ else { t with pile := pile }
  | .start => (chargepileDataGetSet .chargeStart none t.pile).map fun out => { t with pile := out.2.2 }
  | .stop => (chargepileDataGetSet .chargeStop none t.pile).map fun out => { t with pile := out.2.2 }
  | .turn =>
    some { t with pile := chargepileTurn t.pile, ended := if t.pile.chgState = .chargEnd then t.ended + 1 else t.ended }
  | .second => some { t with pile := canHeartTxCallback t.pile }

/-- What is asked of the counts. -/
structure Confirmations.Counted (t : Confirmations) : Prop where
  ended_le : t.ended ≤ t.stops
  stops_le : t.stops ≤ t.ended + 1
  starts_le : t.starts ≤ t.ended + 1
  starts_le_stops : t.starts ≤ t.stops + 1

/-! ## The invariant -/

/-- The flags make up for the confirmations that no turn has ended yet, and at the end of a charge there is one. -/
structure Confirmations.Inv (t : Confirmations) : Prop where
  before_le : t.before ≤ t.pile.events.length
  ended_le : t.ended ≤ t.stops
  ending : t.pile.chgState = .chargEnd → t.ended + 1 ≤ t.stops
  stops_le : t.stops ≤ t.ended + t.pile.stopMuted.toNat
  starts_le : t.starts ≤ t.ended + t.pile.startMuted.toNat

theorem Confirmations.Inv.counted {t : Confirmations} (h : t.Inv) : t.Counted := by
  have hlower := h.ended_le
  have hstops := h.stops_le
  have hstarts := h.starts_le
  have hstopMuted := Bool.toNat_le t.pile.stopMuted
  have hstartMuted := Bool.toNat_le t.pile.startMuted
  exact ⟨hlower, by omega, by omega, by omega⟩

/-- A step keeps the invariant when the flags make up for what it posts, and it ends a charge only with a stop's event. -/
theorem Confirmations.Inv.posts {t : Confirmations} (h : t.Inv) {pile : Pile} (posted : List PileEvent)
    (hevents : pile.events = t.pile.events ++ posted)
    (hstops : t.stops + posted.count .chargeStopOK ≤ t.ended + pile.stopMuted.toNat)
    (hstarts : t.starts + posted.count .chargeStartOK ≤ t.ended + pile.startMuted.toNat)
    (hending : pile.chgState = .chargEnd → t.pile.chgState = .chargEnd ∨ 1 ≤ posted.count .chargeStopOK) :
    Inv { t with pile := pile } := by
  have hposted : Confirmations.posted { t with pile := pile } = t.posted ++ posted := by
    show pile.events.drop t.before = _
    rw [hevents, List.drop_append_of_le_length h.before_le]
    rfl
  have hstopCount : Confirmations.stops { t with pile := pile } = t.stops + posted.count .chargeStopOK := by
    rw [stops, hposted, List.count_append]
    rfl
  have hstartCount : Confirmations.starts { t with pile := pile } = t.starts + posted.count .chargeStartOK := by
    rw [starts, hposted, List.count_append]
    rfl
  have hlower := h.ended_le
  refine ⟨?_, ?_, ?_, ?_, ?_⟩
  · rw [hevents, List.length_append]
    exact Nat.le_add_right_of_le h.before_le
  · rw [hstopCount]
    exact Nat.le_add_right_of_le hlower
  · intro hend
    rw [hstopCount]
    show t.ended + 1 ≤ _
    rcases hending hend with hbefore | hnew
    · have := h.ending hbefore
      omega
    · omega
  · rw [hstopCount]
    exact hstops
  · rw [hstartCount]
    exact hstarts

theorem Confirmations.Inv.silent {t : Confirmations} (h : t.Inv) {pile : Pile} (hsilent : Silent t.pile pile)
    (hmuted : pile.startMuted = t.pile.startMuted) (hstate : pile.chgState = .chargEnd → t.pile.chgState = .chargEnd) :
    Inv { t with pile := pile } := by
  refine h.posts [] ?_ ?_ ?_ ?_
  · rw [hsilent.events, List.append_nil]
  · rw [hsilent.stopMuted]
    exact h.stops_le
  · rw [hmuted]
    exact h.starts_le
  · exact fun hend => .inl (hstate hend)

/-- The state of a start posts its event only when its flag was clear, and leaves it set. -/
theorem Confirmations.Inv.startState {t : Confirmations} (h : t.Inv) (msg : CanMsg) :
    Inv { t with pile := recChargeStartStateFrame msg t.pile } := by
  obtain ⟨hevents, hstopMuted⟩ := recChargeStartStateFrame_posts msg t.pile
  obtain ⟨hstate, hmuted, -⟩ := recChargeStartStateFrame_leaves msg t.pile
  have hstops := h.stops_le
  have hstarts := h.starts_le
  have hbit := Bool.toNat_le t.pile.startMuted
  refine h.posts _ hevents ?_ ?_ ?_
  all_goals by_cases hpost : t.pile.startMuted = false ∧ msg.byte 2 = successful
  · rw [if_pos hpost, hstopMuted]
    exact hstops
  · rw [if_neg hpost, hstopMuted]
    exact hstops
  · rw [if_pos hpost, hmuted]
    rw [hpost.1] at hstarts
    exact Nat.succ_le_succ hstarts
  · rw [if_neg hpost, hmuted]
    show t.starts ≤ t.ended + 1
    omega
  · intro hend
    rw [hstate, if_pos hpost] at hend
    cases hend
  · intro hend
    rw [hstate, if_neg hpost] at hend
    exact .inl hend

theorem Confirmations.Inv.stopState {t : Confirmations} (h : t.Inv) (msg : CanMsg) :
    Inv { t with pile := recChargeStopStateFrame msg t.pile } := by
  obtain ⟨hevents, hstopMuted⟩ := recChargeStopStateFrame_posts msg t.pile
  obtain ⟨hstate, hmuted, -⟩ := recChargeStopStateFrame_leaves msg t.pile
  change _ = if t.pile.stopMuted = false ∧ msg.byte 2 = successful then _ else _ at hstate
  have hstops := h.stops_le
  have hstarts := h.starts_le
  have hbit := Bool.toNat_le t.pile.stopMuted
  refine h.posts _ hevents ?_ ?_ ?_
  all_goals by_cases hpost : t.pile.stopMuted = false ∧ msg.byte 2 = successful
  · rw [if_pos hpost, hstopMuted]
    rw [hpost.1] at hstops
    exact Nat.succ_le_succ hstops
  · rw [if_neg hpost, hstopMuted]
    show t.stops ≤ t.ended + 1
    omega
  · rw [if_pos hpost, hmuted]
    exact hstarts
  · rw [if_neg hpost, hmuted]
    exact hstarts
  · exact fun _ => .inr (by rw [if_pos hpost]; exact Nat.le_refl 1)
  · intro hend
    rw [hstate, if_neg hpost] at hend
    exact .inl hend

theorem Confirmations.inv_of_restart {pile : Pile} (hstate : pile.chgState ≠ .chargEnd) :
    Inv ⟨pile, 0, pile.events.length⟩ := by
  have hposted : Confirmations.posted ⟨pile, 0, pile.events.length⟩ = [] := List.drop_length
  refine ⟨Nat.le_refl _, Nat.zero_le _, fun hend => absurd hend hstate, ?_, ?_⟩
  · rw [stops, hposted]
    exact Nat.zero_le _
  · rw [starts, hposted]
    exact Nat.zero_le _

/-- No message but the state of a stop makes the end of a charge. -/
theorem stateAfter_ne_chargEnd {msg : CanMsg} {s : Pile} (hstop : msg.frame ≠ some .chargeStopStateFrame)
    (h : stateAfter msg s = .chargEnd) : s.chgState = .chargEnd := by
  unfold stateAfter at h
  cases hframe : msg.frame with
  | none =>
    rw [hframe] at h
    exact h
  | some f =>
    rw [hframe] at h hstop
    cases f
    case chargeStopStateFrame => exact absurd rfl hstop
    all_goals
      dsimp only at h
      first
        | exact h
        | (split_ifs at h
           all_goals exact h)

theorem Confirmations.Inv.receive {t t' : Confirmations} (h : t.Inv) {msg : CanMsg} (hstep : t.step (.receive msg) = some t') :
    t'.Inv := by
  obtain ⟨pile, hpile, rfl⟩ := Option.map_eq_some_iff.mp hstep
  have hleaves := (canV110RecProtocal_outcome msg t.pile).post_of_some hpile
  by_cases hrestarts : msg.Restarts
  · rw [if_pos hrestarts]
    refine inv_of_restart ?_
    rw [hleaves.state, stateAfter, hrestarts.1]
    simp only [hrestarts.2, if_true]
    exact nofun
  · rw [if_neg hrestarts]
    by_cases hstart : msg.frame = some .chargeStartStateFrame
    · rw [canV110RecProtocal, hstart] at hpile
      cases hpile
      exact h.startState msg
    by_cases hstop : msg.frame = some .chargeStopStateFrame
    · rw [canV110RecProtocal, hstop] at hpile
      cases hpile
      exact h.stopState msg
    refine h.silent (((canV110RecProtocal_handled msg t.pile).post_of_some hpile).silent hstart hstop hrestarts) ?_ ?_
    · rw [hleaves.muted, mutedAfter]
      split
      next hframe => exact absurd hframe hstart
      next hframe => exact if_neg fun haa => hrestarts ⟨hframe, haa⟩
      next => rfl
    · intro hend
      exact stateAfter_ne_chargEnd hstop (hleaves.state ▸ hend)

/-- The orders the task gives itself and the local commands post nothing and do not end a charge. -/
theorem Confirmations.Inv.chargeStart {t : Confirmations} (h : t.Inv) : Inv { t with pile := (chargeStart t.pile).2 } := by
  refine h.silent ?_ ?_ ?_
  all_goals unfold EnergyRouter.chargeStart
  · split_ifs <;> exact .of_eq rfl rfl
  · split_ifs <;> rfl
  · split_ifs
    · exact nofun
    · exact id

theorem Confirmations.Inv.chargeStop {t : Confirmations} (h : t.Inv) : Inv { t with pile := (chargeStop t.pile).2 } := by
  refine h.silent ?_ ?_ ?_
  all_goals unfold EnergyRouter.chargeStop
  · split_ifs <;> exact .of_eq rfl rfl
  · split_ifs <;> rfl
  · split_ifs
    · exact nofun
    · exact id

theorem Confirmations.Inv.taskOrder {t : Confirmations} (h : t.Inv) : Inv { t with pile := taskOrder t.pile } := by
  rcases taskOrder_cases t.pile with heq | heq | heq
  · rw [heq]
    exact h.chargeStart
  · rw [heq]
    exact h.chargeStop
  · rw [heq]
    exact h

/-- The order leaves the end of a charge and every other state that is not it alone. -/
theorem taskOrder_chargEnd_iff (s : Pile) : (taskOrder s).chgState = .chargEnd ↔ s.chgState = .chargEnd := by
  unfold taskOrder
  split_ifs with hstart hstop
  · rw [chargeStart, if_pos hstart.1, hstart.1]
    exact iff_of_false nofun nofun
  · rw [chargeStop, if_pos hstop.1, hstop.1]
    exact iff_of_false nofun nofun
  · exact Iff.rfl

/-- A turn at the end of a charge clears both flags and counts; the other ones post nothing. -/
theorem Confirmations.Inv.taskSwitch {t : Confirmations} (h : t.Inv) :
    Inv ⟨taskSwitch t.pile, if t.pile.chgState = .chargEnd then t.ended + 1 else t.ended, t.before⟩ := by
  by_cases hend : t.pile.chgState = .chargEnd
  · have hswitch : EnergyRouter.taskSwitch t.pile = { t.pile with
        reSendFlag := fun f => f = .ycSendDataFrame ∨ f = .yxBackupSendDataFrame
        chgState := .standby } := by
      rw [EnergyRouter.taskSwitch, hend]
    rw [if_pos hend, hswitch]
    have hending := h.ending hend
    have hstops := h.stops_le
    have hstarts := h.starts_le
    have hstopBit := Bool.toNat_le t.pile.stopMuted
    have hstartBit := Bool.toNat_le t.pile.startMuted
    refine ⟨h.before_le, hending, nofun, ?_, ?_⟩
    · show t.stops ≤ t.ended + 1
      omega
    · show t.starts ≤ t.ended + 1
      omega
  · rw [if_neg hend]
    have hsilent : Silent t.pile (EnergyRouter.taskSwitch t.pile) := by
      unfold EnergyRouter.taskSwitch
      split
      next => exact informCommunicateCan_silent .vertionCheckFrame nofun false _
      next => exact informCommunicateCan_silent .chargeParaInfoFrame nofun false _
      next => exact (informCommunicateCan_silent .chargeStartFrame nofun false _).trans (.of_eq rfl rfl)
      next => exact (informCommunicateCan_silent .chargeStopFrame nofun false _).trans (.of_eq rfl rfl)
      next hstate => exact absurd hstate hend
      next => exact Silent.rfl
    rcases taskSwitch_cases t.pile with ⟨-, hleaves⟩ | ⟨-, hleaves⟩ | ⟨hstate, -⟩ | hquiet
    · exact h.silent hsilent hleaves.muted fun hafter => nomatch hleaves.state.symm.trans hafter
    · exact h.silent hsilent hleaves.muted fun hafter => nomatch hleaves.state.symm.trans hafter
    · exact absurd hstate hend
    · exact h.silent hsilent hquiet.muted fun hafter => hquiet.state.symm.trans hafter

theorem Confirmations.Inv.step {t t' : Confirmations} (h : t.Inv) {op : PileOp} (hstep : t.step op = some t') : t'.Inv := by
  cases op with
  | receive msg => exact h.receive hstep
  | start =>
    cases hstep
    exact h.chargeStart
  | stop =>
    cases hstep
    exact h.chargeStop
  | turn =>
    cases hstep
    have hturn := h.taskOrder.taskSwitch
    simp only [taskOrder_chargEnd_iff] at hturn
    exact hturn
  | second =>
    cases hstep
    have hcalm := canHeartTxCallback_calm t.pile
    exact h.silent hcalm.silent hcalm.leaves.muted fun hafter => hcalm.leaves.state.symm.trans hafter

end EnergyRouter
