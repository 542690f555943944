import EnergyRouter.Theorems.Acknowledgements

/-!
# Commands the pile does not answer

Over runs in which the pile stays silent: when the callbacks of the timers return, and the command is acknowledged as failed at the
next look at the pile's answers.
-/

namespace EnergyRouter

open Runs

/-- The thread, and for every command whose timer ran out since the last look at the answers, the acknowledgements made before. -/
structure Timed where
  ctrl : Energycon
  expired : ChargeCmd → Option (List Byte)

def Timed.step (t : Timed) (op : EnergyOp) : Option Timed :=
  (Energycon.step t.ctrl op).map fun ctrl => ⟨ctrl, fun c =>
    match op with
    | .timeout d => if d = c ∧ t.ctrl.world.respTimer c = true then some (Energycon.acksOf t.ctrl c) else t.expired c
    | .pileData => none
    | _ => t.expired c⟩

/-- The pile has answered none of the commands. -/
def Unanswered (t : Timed) (_ : EnergyOp) : Prop := ∀ c, Energycon.found t.ctrl c = none
deriving Decidable

/-- The callback of a timer returns; and once the thread has looked at the pile's answers again, the command was acknowledged once
more, as failed, and its flag is clear. -/
def ExpiryAnswered (t : Timed) (op : EnergyOp) : Prop :=
  (∀ c, op = .timeout c → ∃ t', t.step op = some t') ∧
    (op = .pileData → ∃ t', t.step op = some t' ∧ ∀ c before, t.expired c = some before →
      Energycon.acksOf t'.ctrl c = before ++ [failed] ∧ t'.ctrl.flag c = false)

/-- Only the timer of a power adjustment runs out, and the thread does not look at the pile's answers after that. -/
def ExpiryAllowed (t : Timed) : EnergyOp → Prop
  | .timeout c => t.ctrl.world.respTimer c = true → c = .powerAdj
  | .pileData => ∀ c, t.expired c = none
  | _ => True

instance (t : Timed) : ∀ op, Decidable (ExpiryAllowed t op)
  | .timeout _ => inferInstanceAs (Decidable (_ → _))
  | .pileData => inferInstanceAs (Decidable (∀ _, _))
  | .ctrlData | .post _ | .slots | .receive _ | .turn | .second | .pileEvent _ | .fault _ | .clock _ | .plan _ => isTrue trivial

/-! ## Timers -/

/-- The callbacks of a start and of a stop write through a null pointer; that of a power adjustment returns. -/
theorem respTimeout_isSome_iff (c : ChargeCmd) (w : Router) : (∃ w', respTimeout c w = some w') ↔ c = .powerAdj := by
  have hstart : respTimeout .start w = none := rfl
  have hstop : respTimeout .stop w = none := rfl
  cases c with
  | start => simp [hstart]
  | stop => simp [hstop]
  | powerAdj => exact ⟨fun _ => rfl, fun _ => ⟨_, rfl⟩⟩

theorem pileDataRecProcess_idle {s : Energycon} (h : ∀ c, Energycon.found s c = none) : pileDataRecProcess s = some s := by
  rw [pileDataRecProcess, pilePart_idle fun _ => h .start, Option.bind_eq_bind, Option.bind_some,
    pilePart_idle fun _ => h .stop, Option.bind_some, pilePart_idle fun _ => h .powerAdj]

/-- Taking a command starts at most its own timer. -/
theorem Router.taken_respTimer {w : Router} {c d : ChargeCmd} (h : (w.taken c).respTimer d = true) :
    d = c ∨ w.respTimer d = true := by
  by_cases hd : d = c
  · exact .inl hd
  · refine .inr ?_
    unfold Router.taken at h
    split_ifs at h
    · have hforward : (w.forward c).respTimer d = w.respTimer d := by
        cases c <;> exact if_neg hd
      rwa [hforward] at h
    · rwa [Router.acknowledge, Router.refuse_respTimer] at h

/-- No other step than taking a command starts a timer. -/
theorem Energycon.step_respTimer {s s' : Energycon} {op : EnergyOp} (hcall : Energycon.step s op = some s')
    (hctrl : op ≠ .ctrlData) (hpile : op ≠ .pileData) {c : ChargeCmd} (h : s'.world.respTimer c = true) :
    s.world.respTimer c = true := by
  cases op
  case ctrlData => exact absurd rfl hctrl
  case pileData => exact absurd rfl hpile
  case post e =>
    obtain ⟨mask, -, rfl⟩ := Option.map_eq_some_iff.mp hcall
    exact h
  case slots =>
    obtain ⟨w, hw, rfl⟩ := Option.map_eq_some_iff.mp hcall
    exact (slotTurn_frame hw).respTimer ▸ h
  case receive msg =>
    obtain ⟨pile, -, rfl⟩ := Option.map_eq_some_iff.mp hcall
    exact h
  case timeout d =>
    rw [Energycon.step] at hcall
    split_ifs at hcall
    · obtain ⟨w, hw, rfl⟩ := Option.map_eq_some_iff.mp hcall
      obtain ⟨out, -, rfl⟩ := Option.map_eq_some_iff.mp hw
      change (if c = d then false else s.world.respTimer c) = true at h
      split_ifs at h
      exact h
    · cases hcall
      exact h
  all_goals
    cases hcall
    exact h

/-! ## Runs -/

/-- A command whose timer runs or ran out still has its flag set. -/
structure TimerInv (t : Timed) : Prop where
  running : ∀ c, t.ctrl.world.respTimer c = true → t.ctrl.flag c = true
  expired : ∀ c, t.expired c ≠ none → t.ctrl.flag c = true

theorem TimerInv.allowed_iff {t : Timed} (h : TimerInv t) {op : EnergyOp} (hdom : Unanswered t op) :
    ExpiryAllowed t op ↔ ExpiryAnswered t op := by
  cases op
  case timeout c =>
    have hstep : (∃ t', t.step (.timeout c) = some t') ↔ (t.ctrl.world.respTimer c = true → c = .powerAdj) := by
      rw [← respTimeout_isSome_iff c t.ctrl.world]
      constructor
      · rintro ⟨t', ht'⟩ htimer
        obtain ⟨s', hs', -⟩ := Option.map_eq_some_iff.mp ht'
        rw [Energycon.step, if_pos htimer] at hs'
        obtain ⟨w, hw, -⟩ := Option.map_eq_some_iff.mp hs'
        exact ⟨w, hw⟩
      · intro hreturns
        by_cases htimer : t.ctrl.world.respTimer c = true
        · obtain ⟨w, hw⟩ := hreturns htimer
          rw [Timed.step, Energycon.step, if_pos htimer, hw, Option.map_some, Option.map_some]
          exact ⟨_, rfl⟩
        · rw [Timed.step, Energycon.step, if_neg htimer, Option.map_some]
          exact ⟨_, rfl⟩
    rw [ExpiryAllowed, ← hstep]
    constructor
    · intro hreturns
      refine ⟨?_, fun heq => (by cases heq)⟩
      rintro d heq
      exact hreturns
    · rintro ⟨hreturns, -⟩
      exact hreturns c rfl
  case pileData =>
    have hstep : t.step .pileData = some ⟨t.ctrl, fun _ => none⟩ := by
      rw [Timed.step, Energycon.step, pileDataRecProcess_idle hdom, Option.map_some]
    constructor
    · intro hnone
      refine ⟨fun d heq => (by cases heq), fun _ => ⟨_, hstep, ?_⟩⟩
      intro c before hbefore
      rw [hnone c] at hbefore
      cases hbefore
    · rintro ⟨-, hanswered⟩ c
      obtain ⟨t', ht', hclear⟩ := hanswered rfl
      cases hstep.symm.trans ht'
      by_contra hsome
      obtain ⟨before, hbefore⟩ := Option.ne_none_iff_exists'.mp hsome
      -- nothing has cleared the flag that was set when the command was taken
      have hflag := (hclear c before hbefore).2
      rw [h.expired c hsome] at hflag
      cases hflag
  all_goals exact ⟨fun _ => ⟨fun d heq => (by cases heq), fun heq => by cases heq⟩, fun _ => trivial⟩

theorem TimerInv.step {t t' : Timed} (h : TimerInv t) {op : EnergyOp} (hdom : Unanswered t op) (hstep : t.step op = some t') :
    TimerInv t' := by
  obtain ⟨s', hs', rfl⟩ := Option.map_eq_some_iff.mp hstep
  have hflag : (∀ c, t.ctrl.flag c = true → s'.flag c = true) ∧
      ∀ c, s'.world.respTimer c = true → s'.flag c = true := by
    by_cases hctrl : op = .ctrlData
    · subst hctrl
      cases htaken : takenCmd t.ctrl.mask.strategyEvent with
      | none =>
        rw [Energycon.step, ctrlDataTurn_of_none (ctrlDataTurn_free hs') htaken] at hs'
        cases hs'
        have hsame : ∀ c, EnergyControl.flag { t.ctrl with mask := ⟨false, false, 0⟩ } c = t.ctrl.flag c := by
          intro c
          cases c <;> rfl
        refine ⟨fun c hc => (hsame c).trans hc, fun c hc => (hsame c).trans (h.running c hc)⟩
      | some c =>
        have htaken' := ctrlDataTurn_taken hs' htaken
        constructor
        · intro d hd
          rw [htaken'.flag, hd, Bool.true_or]
        · intro d hd
          rw [htaken'.world] at hd
          rw [htaken'.flag]
          rcases Router.taken_respTimer hd with rfl | htimer
          · rw [decide_eq_true rfl, Bool.or_true]
          · rw [h.running d htimer, Bool.true_or]
    · by_cases hpile : op = .pileData
      · subst hpile
        rw [Energycon.step, pileDataRecProcess_idle hdom] at hs'
        cases hs'
        exact ⟨fun c hc => hc, h.running⟩
      · obtain ⟨hsame, -⟩ := Energycon.step_aside hs' hctrl hpile
        rw [hsame]
        exact ⟨fun c hc => hc, fun c hc => h.running c (Energycon.step_respTimer hs' hctrl hpile hc)⟩
  refine ⟨hflag.2, ?_⟩
  intro c hexpired
  refine hflag.1 c ?_
  cases op
  case timeout d =>
    dsimp only at hexpired
    split_ifs at hexpired with hran
    · exact h.running c hran.2
    · exact h.expired c hexpired
  case pileData => exact absurd rfl hexpired
  all_goals exact h.expired c hexpired

/-- Over every run in which the pile answers no command: the callbacks of the timers return and every command whose timer ran out is
acknowledged once as failed with its flag cleared, exactly when no timer of a start or a stop runs out, and the thread does not
look at the pile's answers after that of a power adjustment has. -/
theorem unanswered_acknowledged_iff (s : Energycon) (hs : ∀ c, s.world.respTimer c = false) (ops : List EnergyOp)
    (hdom : Meets Timed.step Unanswered ⟨s, fun _ => none⟩ ops) :
    Meets Timed.step ExpiryAllowed ⟨s, fun _ => none⟩ ops ↔ Meets Timed.step ExpiryAnswered ⟨s, fun _ => none⟩ ops := by
  refine meets_congr_within (fun t op h hop => TimerInv.allowed_iff h hop) (fun t op t' h hop _ hstep => h.step hop hstep) ?_ hdom
  refine ⟨?_, fun c hc => absurd rfl hc⟩
  intro c hc
  rw [hs c] at hc
  cases hc

/-- A power adjustment whose timer runs out, with nothing looked at since. -/
theorem unanswered_acknowledged_powerAdj :
    Meets Timed.step ExpiryAnswered ⟨powerUpEnergycon, fun _ => none⟩
      [.post .powerAdj, .pileData, .ctrlData, .pileData, .timeout .powerAdj, .turn] :=
  (unanswered_acknowledged_iff powerUpEnergycon (by decide) _ (by decide)).mp (by decide)

/-- A start that the pile does not answer: its timer runs, its flag is set, and the callback of the timer writes through a null
pointer. A power adjustment that it does not answer: the callback returns, and no look at the pile's answers acknowledges it. -/
theorem start_timeout_null_powerAdj_unacknowledged :
    Meets Timed.step Unanswered ⟨powerUpEnergycon, fun _ => none⟩ [.post .startChg, .ctrlData, .timeout .start] ∧
    (run Timed.step ⟨powerUpEnergycon, fun _ => none⟩ [.post .startChg, .ctrlData]).map
        (fun t => (t.ctrl.world.respTimer .start, t.ctrl.flag .start, t.ctrl.world.acks)) = some (true, true, []) ∧
    (run Timed.step ⟨powerUpEnergycon, fun _ => none⟩ [.post .startChg, .ctrlData, .timeout .start]).isNone = true ∧
    (run Timed.step ⟨powerUpEnergycon, fun _ => none⟩ [.post .powerAdj, .ctrlData, .timeout .powerAdj, .pileData]).map
        (fun t => (t.ctrl.world.respTimer .powerAdj, t.ctrl.flag .powerAdj, t.ctrl.world.acks)) = some (false, true, []) ∧
    ¬ Meets Timed.step ExpiryAnswered ⟨powerUpEnergycon, fun _ => none⟩ [.post .startChg, .ctrlData, .timeout .start] := by
  have hrun : (run Timed.step ⟨powerUpEnergycon, fun _ => none⟩ [.post .startChg, .ctrlData]).map
      (fun t => (t.ctrl.world.respTimer .start, t.ctrl.flag .start, t.ctrl.world.acks)) = some (true, true, []) := by
    decide
  have hnone : (run Timed.step ⟨powerUpEnergycon, fun _ => none⟩ [.post .startChg, .ctrlData, .timeout .start]).isNone = true := by
    decide +kernel
  refine ⟨by decide, hrun, hnone, by decide, ?_⟩
  intro hmeets
  obtain ⟨t, ht, -⟩ := Option.map_eq_some_iff.mp hrun
  have hanswered : ExpiryAnswered t (.timeout .start) :=
    Meets.demand_of_run [.post .startChg, .ctrlData] hmeets ht
  obtain ⟨t', ht'⟩ := hanswered.1 .start rfl
  have hsome : run Timed.step ⟨powerUpEnergycon, fun _ => none⟩ ([.post .startChg, .ctrlData] ++ [.timeout .start]) = some t' := by
    rw [run_append, ht, Option.bind_some, run, ht', Option.bind_some, run]
  rw [show [EnergyOp.post .startChg, .ctrlData, .timeout .start] = [.post .startChg, .ctrlData] ++ [.timeout .start] from rfl,
    hsome] at hnone
  cases hnone

end EnergyRouter
