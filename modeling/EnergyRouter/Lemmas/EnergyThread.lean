import EnergyRouter.EnergyThread
import EnergyRouter.Lemmas.Control
import EnergyRouter.Lib.Runs

/-!
# What the calls of the energy-control thread do

When the calls that take a command or an answer of the pile return, and what they leave in the flags, the acknowledgements and the
commands forwarded.
-/

namespace EnergyRouter

open Runs

variable {w : Router} {s s' : Energycon} {c : ChargeCmd} {answer : Byte}

/-! ## Small facts -/

@[simp] theorem EnergyControl.flag_setFlag {W : Type} (s : EnergyControl W) (c : ChargeCmd) (on : Bool) (d : ChargeCmd) :
    (s.setFlag c on).flag d = if d = c then on else s.flag d := by
  cases c <;> cases d <;> rfl

@[simp] theorem EnergyControl.hplc_setFlag {W : Type} (s : EnergyControl W) (c : ChargeCmd) (on : Bool) :
    (s.setFlag c on).hplc = s.hplc := by
  cases c <;> rfl

@[simp] theorem EnergyControl.mask_setFlag {W : Type} (s : EnergyControl W) (c : ChargeCmd) (on : Bool) :
    (s.setFlag c on).mask = s.mask := by
  cases c <;> rfl

@[simp] theorem EnergyControl.flag_setWorld {W : Type} (s : EnergyControl W) (world : W) (c : ChargeCmd) :
    (s.setWorld world).flag c = s.flag c := by
  cases c <;> rfl

@[simp] theorem Router.forward_acks (w : Router) (c : ChargeCmd) : (w.forward c).acks = w.acks := by
  cases c <;> rfl

@[simp] theorem Router.forward_forwarded (w : Router) (c : ChargeCmd) : (w.forward c).forwarded = w.forwarded ++ [c] := by
  cases c <;> rfl

theorem findSlot_eq_some_iff {first i : Nat} :
    findSlot w first = some i ↔ (first ≤ i ∧ i < timeSoltMax) ∧ slotMatches (w.chgStrategy.slot i) w.systemTime = true ∧
      ∀ j, first ≤ j → j < i → slotMatches (w.chgStrategy.slot j) w.systemTime = false := by
  rw [findSlot, List.find?_eq_some_iff_getElem]
  constructor
  · rintro ⟨hmatches, k, hk, hki, hbefore⟩
    simp only [List.length_range', List.getElem_range', Nat.one_mul] at hk hki hbefore
    refine ⟨⟨by omega, by omega⟩, hmatches, ?_⟩
    intro j hj hji
    have hnot := hbefore (j - first) (by omega)
    rw [Nat.add_sub_cancel' hj] at hnot
    simpa using hnot
  · rintro ⟨⟨hfirst, hi⟩, hmatches, hbefore⟩
    refine ⟨hmatches, i - first, by rw [List.length_range']; omega, ?_, ?_⟩
    · rw [List.getElem_range']
      omega
    · intro j hj
      simp only [List.getElem_range', Nat.one_mul, hbefore (first + j) (by omega) (by omega), Bool.not_false]

/-- What the slots leave alone: everything about the commands. -/
structure SlotFrame (w w' : Router) : Prop where
  acks : w'.acks = w.acks
  forwarded : w'.forwarded = w.forwarded
  respTimer : w'.respTimer = w.respTimer
  state : w'.pile.chgState = w.pile.chgState

theorem slotLoop_frame (w : Router) : SlotFrame w (slotLoop w) := by
  unfold slotLoop
  cases findSlot w w.count with
  | none => exact ⟨rfl, rfl, rfl, rfl⟩
  | some i =>
    dsimp only
    split_ifs
    · exact ⟨rfl, rfl, rfl, rfl⟩
    · exact ⟨rfl, rfl, rfl, rfl⟩

theorem slotTurn_frame {w' : Router} (hcall : slotTurn w = some w') : SlotFrame w w' := by
  obtain ⟨w₁, h₁, rfl⟩ := Option.map_eq_some_iff.mp hcall
  have hloop := slotLoop_frame w₁
  have hframe : SlotFrame w w₁ := by
    split_ifs at h₁
    · cases h₁
      exact ⟨rfl, rfl, rfl, rfl⟩
    · obtain ⟨i, -, rfl⟩ := Option.map_eq_some_iff.mp h₁
      exact ⟨rfl, rfl, rfl, rfl⟩
  exact ⟨hloop.acks.trans hframe.acks, hloop.forwarded.trans hframe.forwarded, hloop.respTimer.trans hframe.respTimer,
    hloop.state.trans hframe.state⟩

/-! ## A command is taken -/

/-- What a refused command is answered. -/
def Router.refusal (w : Router) (c : ChargeCmd) : Byte := if (w.finding c).faultTotal then failed else orthers

/-- What the world is after a command was taken: it is forwarded, or acknowledged as refused. -/
def Router.taken (w : Router) (c : ChargeCmd) : Router :=
  if w.accepts c then w.forward c else (w.refuse c (w.refusal c)).acknowledge c

/-- The state after a command was taken. -/
structure Taken (c : ChargeCmd) (s s' : Energycon) : Prop where
  flag : ∀ d, s'.flag d = (s.flag d || decide (d = c))
  world : s'.world = s.world.taken c
  mask : s'.mask = ⟨false, false, 0⟩
  unlocked : s'.hplc.Unlocked ↔ c ≠ .powerAdj

theorem takenCmd_eq_some_iff (mask : BitVec 32) (c : ChargeCmd) : takenCmd mask = some c ↔ mask = c.event.event := by
  unfold takenCmd
  constructor
  · intro h
    split_ifs at h with hstart hstop hpower
    · cases h
      exact hstart
    · cases h
      exact hstop
    · cases h
      exact hpower
  · rintro rfl
    cases c <;> rfl

theorem ctrlDataTurn_of_none (hfree : s.mask.Free) (hnone : takenCmd s.mask.strategyEvent = none) :
    ctrlDataTurn s = some { s with mask := ⟨false, false, 0⟩ } := by
  have hne : ∀ c : ChargeCmd, s.mask.strategyEvent ≠ c.event.event := by
    intro c hc
    rw [(takenCmd_eq_some_iff _ c).mpr hc] at hnone
    cases hnone
  have hstart : s.mask.strategyEvent ≠ CtrlEvent.startChg.event := hne .start
  have hstop : s.mask.strategyEvent ≠ CtrlEvent.stopChg.event := hne .stop
  have hpower : s.mask.strategyEvent ≠ CtrlEvent.powerAdj.event := hne .powerAdj
  rw [ctrlDataTurn, ctrlDataRecProcess_eq _ _ hfree, if_neg hstart, if_neg hstop, if_neg hpower]

/-- The state in which the case of a command runs. -/
def Energycon.noted (s : Energycon) (c : ChargeCmd) : Energycon := { s with mask := ⟨false, false, 0⟩ }.setFlag c true

theorem ctrlDataTurn_of_some (hfree : s.mask.Free) (htaken : takenCmd s.mask.strategyEvent = some c) :
    ctrlDataTurn s = ctrlCase ctrlActions c.fetch c.ack c.event (s.world.accepts c) (s.world.finding c) (Energycon.noted s c) := by
  have hmask := (takenCmd_eq_some_iff _ c).mp htaken
  rw [ctrlDataTurn, htaken, Option.getD_some, ctrlDataRecProcess_eq _ _ hfree, hmask, Router.accepts]
  cases c with
  | start => simp [ChargeCmd.event, ChargeCmd.fetch, ChargeCmd.ack, Energycon.noted, EnergyControl.setFlag, EnergyControl.world]
  | stop =>
    have hne : CtrlEvent.stopChg.event ≠ CtrlEvent.startChg.event := by decide
    simp [ChargeCmd.event, ChargeCmd.fetch, ChargeCmd.ack, Energycon.noted, EnergyControl.setFlag, EnergyControl.world, hne]
  | powerAdj =>
    have hne : CtrlEvent.powerAdj.event ≠ CtrlEvent.startChg.event := by decide
    have hne' : CtrlEvent.powerAdj.event ≠ CtrlEvent.stopChg.event := by decide
    simp [ChargeCmd.event, ChargeCmd.fetch, ChargeCmd.ack, Energycon.noted, EnergyControl.setFlag, EnergyControl.world, hne, hne']

theorem ChargeCmd.cmd_event (c : ChargeCmd) : c.event.cmd = some c := by
  cases c <;> rfl

theorem recCase_fetch (hc : c ≠ .powerAdj) : ∃ result, recCase c.fetch = some (result, false) := by
  cases c with
  | start => exact ⟨0, rfl⟩
  | stop => exact ⟨1, rfl⟩
  | powerAdj => exact absurd rfl hc

theorem copy_fetch (c : ChargeCmd) (w : Router) : ctrlActions.copy c.fetch w = w := by
  cases c <;> rfl

theorem recCase_ack (hc : c ≠ .powerAdj) : recCase c.ack = some (0, true) := by
  cases c with
  | start => rfl
  | stop => rfl
  | powerAdj => exact absurd rfl hc

theorem copy_ack (hc : c ≠ .powerAdj) (w : Router) : ctrlActions.copy c.ack w = w.acknowledge c := by
  cases c with
  | start => rfl
  | stop => rfl
  | powerAdj => exact absurd rfl hc

/-- A start or a stop is taken exactly when the port's flags are clear. -/
theorem ctrlDataTurn_outcome (hfree : s.mask.Free) (htaken : takenCmd s.mask.strategyEvent = some c) (hc : c ≠ .powerAdj) :
    Outcome (ctrlDataTurn s) s.hplc.Unlocked (Taken c s) := by
  have hhplc : (Energycon.noted s c).hplc = s.hplc := by simp [Energycon.noted]
  have hmask : (Energycon.noted s c).mask = ⟨false, false, 0⟩ := by simp [Energycon.noted]
  have hflag : ∀ d, (Energycon.noted s c).flag d = (s.flag d || decide (d = c)) := by
    intro d
    by_cases hd : d = c
    · simp [Energycon.noted, hd]
    · rw [Energycon.noted, EnergyControl.flag_setFlag, if_neg hd]
      cases d <;> simp [EnergyControl.flag, hd]
  obtain ⟨result, hfetch⟩ := recCase_fetch hc
  rw [ctrlDataTurn_of_some hfree htaken, ctrlCase, hhplc]
  constructor
  · intro hunlocked
    rw [ctrlUnitRecResp_of_case _ hunlocked hfetch, copy_fetch]
    simp only [Option.bind_eq_bind, Option.bind_some, Bool.false_eq_true, if_false]
    cases haccepts : s.world.accepts c with
    | true =>
      refine ⟨_, rfl, ?_, ?_, hmask, ⟨fun _ => hc, fun _ => ⟨rfl, rfl⟩⟩⟩
      · intro d
        rw [← hflag d]
        cases d <;> rfl
      · rw [Router.taken, haccepts]
        change c.event.cmd.elim _ _ = _
        rw [c.cmd_event]
        rfl
    | false =>
      simp only [Bool.false_eq_true, if_false]
      rw [ctrlUnitRecResp_of_case _ ⟨rfl, rfl⟩ (recCase_ack hc)]
      refine ⟨_, rfl, ?_, ?_, hmask, ⟨fun _ => hc, fun _ => ⟨rfl, rfl⟩⟩⟩
      · intro d
        rw [← hflag d]
        cases d <;> rfl
      · rw [Router.taken, haccepts]
        change ctrlActions.copy c.ack (c.event.cmd.elim _ _) = _
        rw [c.cmd_event, copy_ack hc]
        rfl
  · intro hlocked
    rw [ctrlUnitRecResp_locked _ hlocked]
    rfl

/-- A power adjustment keeps the port's flags, so the call returns exactly when they are clear and nothing is refused. -/
theorem ctrlDataTurn_powerAdj_outcome (hfree : s.mask.Free) (htaken : takenCmd s.mask.strategyEvent = some .powerAdj) :
    Outcome (ctrlDataTurn s) (s.hplc.Unlocked ∧ s.world.accepts .powerAdj = true) (Taken .powerAdj s) := by
  rw [ctrlDataTurn_of_some hfree htaken, ctrlCase]
  change Outcome ((ctrlUnitRecResp ctrlActions.copy .powerAdj s.hplc).bind _) _ _
  constructor
  · rintro ⟨hunlocked, haccepts⟩
    rw [ctrlUnitRecResp_default _ hunlocked rfl, haccepts]
    refine ⟨_, rfl, ?_, ?_, rfl, ⟨fun h => (by cases h.1), fun h => absurd rfl h⟩⟩
    · intro d
      cases d <;> simp [EnergyControl.flag, Energycon.noted, EnergyControl.setFlag]
    · rw [Router.taken, haccepts]
      rfl
  · intro hnot
    by_cases hunlocked : s.hplc.Unlocked
    · have hrefused : s.world.accepts .powerAdj = false := by simpa [hunlocked] using hnot
      rw [ctrlUnitRecResp_default _ hunlocked rfl, hrefused]
      simp only [Option.bind_some, Bool.false_eq_true, if_false]
      change (ctrlUnitRecResp _ _ _).bind _ = _
      rw [ctrlUnitRecResp_locked _ (fun hfree => by cases hfree.1)]
      rfl
    · rw [ctrlUnitRecResp_locked _ hunlocked]
      rfl

theorem ctrlDataTurn_free (hcall : ctrlDataTurn s = some s') : s.mask.Free := by
  by_contra hnot
  rw [ctrlDataTurn, ctrlDataRecProcess, strategyEventGet, if_neg hnot] at hcall
  cases hcall

/-- What a call that returns has done with the command that was the whole mask. -/
theorem ctrlDataTurn_taken (hcall : ctrlDataTurn s = some s') (htaken : takenCmd s.mask.strategyEvent = some c) :
    Taken c s s' := by
  have hfree := ctrlDataTurn_free hcall
  by_cases hc : c = .powerAdj
  · subst hc
    exact (ctrlDataTurn_powerAdj_outcome hfree htaken).post_of_some hcall
  · exact (ctrlDataTurn_outcome hfree htaken hc).post_of_some hcall

/-! ## An answer of the pile is taken -/

theorem copy_cases (cmd : CommCmd) (w : Router) : ctrlActions.copy cmd w = w ∨ ∃ c, ctrlActions.copy cmd w = w.acknowledge c := by
  unfold ctrlActions
  dsimp only
  split
  · exact .inr ⟨.start, rfl⟩
  · exact .inr ⟨.stop, rfl⟩
  · exact .inl rfl

theorem respond_world {result : Nat} (hcall : Energycon.respond s c w = some (result, s')) :
    s'.world = w ∨ ∃ d, s'.world = w.acknowledge d := by
  obtain ⟨⟨result', hplc⟩, hhplc, hout⟩ := Option.map_eq_some_iff.mp hcall
  cases hout
  unfold ctrlUnitRecResp at hhplc
  split_ifs at hhplc
  cases hcase : recCase c.ack with
  | none =>
    rw [hcase] at hhplc
    cases hhplc
    exact .inl rfl
  | some out =>
    rw [hcase] at hhplc
    cases hhplc
    exact copy_cases c.ack w

/-- The answer of the pile that is found for a command. -/
def Energycon.found (s : Energycon) (c : ChargeCmd) : Option Byte :=
  if s.world.chargePileEvent c.okEvent then some successful
  else if s.world.chargePileEvent c.erEvent then some failed
  else none

/-- The record in which the pile's answer to a command is noted. -/
def ChargeCmd.noted (c : ChargeCmd) (answer : Byte) : ChargeCmd := if answer = successful then c else c.failRecord

/-- The world with an answer of the pile noted; after a failure it has the pile's reason among its parameters. -/
def Router.answered (w : Router) (c : ChargeCmd) (answer : Byte) (para : PilePara) : Router :=
  { ((w.takeEvent (if answer = successful then c.okEvent else c.erEvent)).setTimer c false).setSucIdle (c.noted answer) answer with
    paraGet := para }

/-- What a part of `PileData_RecProcess` can do to the world: an answer is noted and possibly acknowledged. -/
theorem pilePart_world (hcall : pilePart c s = some s') :
    (s.flag c = true → Energycon.found s c = none) ∧ s'.world = s.world ∨
      ∃ answer para, s.flag c = true ∧ Energycon.found s c = some answer ∧
        (s'.world = s.world.answered c answer para ∨ ∃ d, s'.world = (s.world.answered c answer para).acknowledge d) := by
  unfold pilePart at hcall
  split_ifs at hcall with hflag hok her
  · obtain ⟨⟨result, s₁⟩, hrespond, rfl⟩ := Option.map_eq_some_iff.mp hcall
    refine .inr ⟨successful, s.world.paraGet, hflag, if_pos hok, ?_⟩
    have hworld := respond_world hrespond
    dsimp only
    split_ifs
    · rw [EnergyControl.world, EnergyControl.hplc_setFlag]
      exact hworld
    · exact hworld
  · obtain ⟨⟨result, para, pile⟩, hget, hcall⟩ := Option.bind_eq_some_iff.mp hcall
    obtain ⟨⟨result', s₁⟩, hrespond, rfl⟩ := Option.map_eq_some_iff.mp hcall
    have hpile : pile = s.world.pile := by
      cases c <;> cases hget <;> rfl
    subst hpile
    have hworld := respond_world hrespond
    exact .inr ⟨failed, _, hflag, (if_neg hok).trans (if_pos her), hworld⟩
  · cases hcall
    exact .inl ⟨fun _ => (if_neg hok).trans (if_neg her), rfl⟩
  · cases hcall
    exact .inl ⟨fun h => absurd h hflag, rfl⟩

/-- The outcome the acknowledgement after an answer carries: what stands in the record of the command then. -/
def Energycon.given (s : Energycon) (c : ChargeCmd) : Byte :=
  if s.world.chargePileEvent c.okEvent then successful else ((s.world.setSucIdle c.failRecord failed).ctrl c).cSucIdle

/-- The state after an answer was taken and its command acknowledged. -/
structure Answered (c : ChargeCmd) (s s' : Energycon) : Prop where
  flag : ∀ d, s'.flag d = (s.flag d && decide (d ≠ c))
  acks : s'.world.acks = s.world.acks ++ [(c, Energycon.given s c)]
  forwarded : s'.world.forwarded = s.world.forwarded
  events : ∀ e, e ≠ c.okEvent → e ≠ c.erEvent → s'.world.chargePileEvent e = s.world.chargePileEvent e
  record : c = .start → s'.world.ctrl .stop = s.world.ctrl .stop
  mask : s'.mask = s.mask
  unlocked : s'.hplc.Unlocked

theorem pilePart_idle (h : s.flag c = true → Energycon.found s c = none) :
    pilePart c s = some s := by
  unfold pilePart
  cases hflag : s.flag c with
  | false => rfl
  | true =>
    have hfound := h hflag
    unfold Energycon.found at hfound
    change (if s.world.chargePileEvent c.okEvent then _ else if s.world.chargePileEvent c.erEvent then _ else _) = _
    split_ifs at hfound with hok her
    rw [if_neg hok, if_neg her]

@[simp] theorem Router.setSucIdle_ctrl_self (w : Router) (c : ChargeCmd) (sucIdle : Byte) :
    ((w.setSucIdle c sucIdle).ctrl c).cSucIdle = sucIdle := by
  rw [Router.setSucIdle]
  simp

@[simp] theorem Router.refuse_acks (w : Router) (c : ChargeCmd) (sucIdle : Byte) : (w.refuse c sucIdle).acks = w.acks := by
  cases c <;> rfl

@[simp] theorem Router.refuse_forwarded (w : Router) (c : ChargeCmd) (sucIdle : Byte) :
    (w.refuse c sucIdle).forwarded = w.forwarded := by
  cases c <;> rfl

@[simp] theorem Router.refuse_pile (w : Router) (c : ChargeCmd) (sucIdle : Byte) : (w.refuse c sucIdle).pile = w.pile := by
  cases c <;> rfl

@[simp] theorem Router.refuse_respTimer (w : Router) (c : ChargeCmd) (sucIdle : Byte) :
    (w.refuse c sucIdle).respTimer = w.respTimer := by
  cases c <;> rfl

@[simp] theorem Router.refuse_ctrl_self (w : Router) (c : ChargeCmd) (sucIdle : Byte) :
    ((w.refuse c sucIdle).ctrl c).cSucIdle = sucIdle := by
  cases c with
  | start | stop => exact Router.setSucIdle_ctrl_self _ _ sucIdle
  | powerAdj => rfl

/-- The state after a start or a stop was acknowledged. -/
def Energycon.acked (s : Energycon) (c : ChargeCmd) (w : Router) : Energycon :=
  { s with
    hplc := { s.hplc with
      lock1 := false
      lock2 := false
      hplcEvent := s.hplc.hplcEvent ||| c.ack.event
      world := w.acknowledge c } }

theorem respond_outcome (hc : c ≠ .powerAdj) (s : Energycon) (w : Router) :
    Outcome (Energycon.respond s c w) s.hplc.Unlocked fun out => out = (0, Energycon.acked s c w) := by
  unfold Energycon.respond
  constructor
  · intro hunlocked
    have hcall := ctrlUnitRecResp_of_case ctrlActions.copy (s := { s.hplc with world := w }) hunlocked (recCase_ack hc)
    rw [copy_ack hc] at hcall
    rw [hcall, Option.map_some]
    exact ⟨_, rfl, rfl⟩
  · intro hlocked
    rw [ctrlUnitRecResp_locked ctrlActions.copy (s := { s.hplc with world := w }) hlocked, Option.map_none]

@[simp] theorem Energycon.flag_acked (s : Energycon) (c : ChargeCmd) (w : Router) (d : ChargeCmd) :
    (Energycon.acked s c w).flag d = s.flag d := by
  cases d <;> rfl

theorem flag_cleared (s : Energycon) (c d : ChargeCmd) : (s.setFlag c false).flag d = (s.flag d && decide (d ≠ c)) := by
  by_cases hd : d = c
  · simp [hd]
  · simp [hd]

theorem pileDone_outcome (hc : c ≠ .powerAdj) (hok : s.world.chargePileEvent c.okEvent = true) :
    Outcome (pileDone c s) s.hplc.Unlocked (Answered c s) := by
  have hgiven : Energycon.given s c = successful := if_pos hok
  have hcall := (respond_outcome hc s (((s.hplc.world.takeEvent c.okEvent).setTimer c false).setSucIdle c successful)).map
    fun out => if out.1 = 0 then out.2.setFlag c false else out.2
  refine ⟨?_, hcall.stuck⟩
  intro hunlocked
  obtain ⟨s', hs', out, rfl, rfl⟩ := hcall.returned hunlocked
  refine ⟨_, hs', ?_⟩
  rw [if_pos rfl]
  refine ⟨?_, ?_, ?_, ?_, ?_, ?_, ?_⟩
  · intro d
    rw [flag_cleared, Energycon.flag_acked]
  · rw [hgiven, EnergyControl.world, EnergyControl.hplc_setFlag]
    change _ ++ [(c, (Router.ctrl _ c).cSucIdle)] = _
    rw [Router.setSucIdle_ctrl_self]
    rfl
  · rw [EnergyControl.world, EnergyControl.hplc_setFlag]
    rfl
  · intro e he _
    rw [EnergyControl.world, EnergyControl.hplc_setFlag]
    exact if_neg he
  · rintro rfl
    rw [EnergyControl.world, EnergyControl.hplc_setFlag]
    rfl
  · rw [EnergyControl.mask_setFlag]
    rfl
  · rw [EnergyControl.hplc_setFlag]
    exact ⟨rfl, rfl⟩

theorem pileFailed_outcome (hc : c ≠ .powerAdj) (hok : s.world.chargePileEvent c.okEvent = false) :
    Outcome (pileFailed c s) s.hplc.Unlocked (Answered c s) := by
  have hreason : c.reasonCmd = .chargeStartResp := by
    cases c with
    | start => rfl
    | stop => rfl
    | powerAdj => exact absurd rfl hc
  have hgiven : Energycon.given s c = ((s.world.setSucIdle c.failRecord failed).ctrl c).cSucIdle := by
    rw [Energycon.given, hok]
    rfl
  unfold pileFailed
  rw [hreason]
  change Outcome ((Energycon.respond (s.setFlag c false) c _).map _) _ _
  have hcall := (respond_outcome hc (s.setFlag c false)
    { ((s.hplc.world.takeEvent c.erEvent).setTimer c false).setSucIdle c.failRecord failed with
      paraGet := { s.hplc.world.paraGet with startReson := s.hplc.world.pile.para.startReson } }).map Prod.snd
  rw [EnergyControl.hplc_setFlag] at hcall
  refine ⟨?_, hcall.stuck⟩
  intro hunlocked
  obtain ⟨s', hs', out, rfl, rfl⟩ := hcall.returned hunlocked
  refine ⟨_, hs', ?_, ?_, ?_, ?_, ?_, ?_, ?_⟩
  · intro d
    rw [Energycon.flag_acked, flag_cleared]
  · rw [hgiven]
    rfl
  · rfl
  · intro e _ he
    exact if_neg he
  · rintro rfl
    rfl
  · exact EnergyControl.mask_setFlag ..
  · exact ⟨rfl, rfl⟩

/-- The answer to a start or a stop is taken exactly when the port's flags are clear. -/
theorem pilePart_outcome (hc : c ≠ .powerAdj) (hflag : s.flag c = true) (hfound : Energycon.found s c = some answer) :
    Outcome (pilePart c s) s.hplc.Unlocked (Answered c s) := by
  unfold pilePart
  rw [if_pos hflag]
  change Outcome (if s.world.chargePileEvent c.okEvent then _ else if s.world.chargePileEvent c.erEvent then _ else _) _ _
  unfold Energycon.found at hfound
  cases hok : s.world.chargePileEvent c.okEvent with
  | true =>
    rw [if_pos rfl]
    exact pileDone_outcome hc hok
  | false =>
    rw [hok, if_neg Bool.false_ne_true] at hfound
    rw [if_neg Bool.false_ne_true]
    split_ifs at hfound with her
    rw [if_pos her]
    exact pileFailed_outcome hc hok

/-- With the port's flags set, an answer to a power adjustment cannot be taken. -/
theorem pilePart_powerAdj_locked (hflag : s.flag .powerAdj = true) (hlocked : ¬ s.hplc.Unlocked)
    (hfound : Energycon.found s .powerAdj = some answer) : pilePart .powerAdj s = none := by
  have hrespond : ∀ w, Energycon.respond s .powerAdj w = none := by
    intro w
    rw [Energycon.respond, ctrlUnitRecResp_locked ctrlActions.copy (s := { s.hplc with world := w }) hlocked, Option.map_none]
  unfold pilePart
  rw [if_pos hflag]
  change (if s.world.chargePileEvent ChargeCmd.powerAdj.okEvent then _
    else if s.world.chargePileEvent ChargeCmd.powerAdj.erEvent then _ else _) = _
  unfold Energycon.found at hfound
  split_ifs at hfound with hok her
  · rw [if_pos hok, pileDone, hrespond, Option.map_none]
  · rw [if_neg hok, if_pos her]
    change (Energycon.respond s .powerAdj _).map _ = _
    rw [hrespond, Option.map_none]

end EnergyRouter
