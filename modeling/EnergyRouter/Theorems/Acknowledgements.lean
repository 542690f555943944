import EnergyRouter.Lemmas.EnergyThread
import EnergyRouter.Theorems.Commands
import EnergyRouter.Theorems.Sessions

/-!
# Every command is acknowledged once

A ledger says what is due for the commands the energy control takes: one acknowledgement each, with the outcome. The thread is run
beside the ledger.
-/

namespace EnergyRouter

open Runs

variable {s s' : Energycon} {c d : ChargeCmd} {op : EnergyOp}

/-! ## The ledger -/

/-- What is due for the commands of one kind: the acknowledgements, the number forwarded, the number without an answer, and the
answer that came for the first of these. -/
structure Account where
  acks : List Byte
  forwarded : Nat
  waiting : Nat
  answer : Option Byte
  deriving DecidableEq, Repr

/-- A command is taken: with a fault it fails, with another router's asset number it is refused, otherwise it is forwarded. -/
def Account.take (a : Account) (fault assetOk : Bool) : Account :=
  if fault then { a with acks := a.acks ++ [failed] }
  else if assetOk then { a with forwarded := a.forwarded + 1, waiting := a.waiting + 1 }
  else { a with acks := a.acks ++ [orthers] }

/-- The pile answers: the first answer counts, and only when one is awaited. -/
def Account.note (a : Account) (answer : Byte) : Account :=
  if 0 < a.waiting ∧ a.answer = none then { a with answer := some answer } else a

/-- The answer that came is acknowledged. -/
def Account.settle (a : Account) : Account :=
  match a.answer with
  | none => a
  | some answer => { a with acks := a.acks ++ [answer], waiting := a.waiting - 1, answer := none }

/-- What an event of the pile says about a command. -/
def ChargeCmd.answerOf (c : ChargeCmd) (e : PileEvent) : Option Byte :=
  if e = c.okEvent then some successful else if e = c.erEvent then some failed else none

/-- Events of the pile, one after the other. -/
def Account.noteAll (a : Account) (c : ChargeCmd) (events : List PileEvent) : Account :=
  events.foldl (fun a e => (c.answerOf e).elim a a.note) a

/-- The ledger after a step of the thread. -/
def nextLedger (s s' : Energycon) (ledger : ChargeCmd → Account) (op : EnergyOp) (c : ChargeCmd) : Account :=
  match op with
  | .ctrlData =>
    if s.mask.bits c.event then (ledger c).take (s.world.faultTotal ≠ 0) (s.world.finding c).assetOk else ledger c
  | .pileData => (ledger c).settle
  | .pileEvent e => (ledger c).noteAll c [e]
  | _ => (ledger c).noteAll c (newEvents s.world.pile s'.world.pile)

/-- The thread beside the ledger. -/
structure Ledgered where
  ctrl : Energycon
  ledger : ChargeCmd → Account

def Ledgered.step (t : Ledgered) (op : EnergyOp) : Option Ledgered :=
  (Energycon.step t.ctrl op).map fun ctrl => ⟨ctrl, nextLedger t.ctrl ctrl t.ledger op⟩

/-- The acknowledgements made for a command. -/
def Energycon.acksOf (s : Energycon) (c : ChargeCmd) : List Byte := (s.world.acks.filter fun ack => ack.1 = c).map Prod.snd

/-- How often a command was forwarded. -/
def Energycon.forwardedOf (s : Energycon) (c : ChargeCmd) : Nat := s.world.forwarded.count c

/-- The thread has done for a command what is due, and its flag says whether an answer is awaited. -/
structure Account.Kept (a : Account) (s : Energycon) (c : ChargeCmd) : Prop where
  acks : Energycon.acksOf s c = a.acks
  forwarded : Energycon.forwardedOf s c = a.forwarded
  flag : s.flag c = decide (0 < a.waiting)

/-- What is asked of a step: the calls of the thread return, and afterwards all is done that is due. -/
def Lawful (t : Ledgered) (op : EnergyOp) : Prop :=
  (op = .ctrlData ∨ op = .pileData → ∃ t', t.step op = some t') ∧ ∀ t', t.step op = some t' → ∀ c, (t'.ledger c).Kept t'.ctrl c

/-! ## When it is so -/

/-- A command can be taken as asked: there is no fault and the asset number is right; or an earlier one awaits its answer, and the
command is refused for the ledger's reason. -/
def TakeAllowed (s : Energycon) (c : ChargeCmd) : Prop :=
  s.hplc.Unlocked ∧
    ((s.world.faultTotal = 0 ∧ (s.world.finding c).assetOk = true) ∨
      (c ≠ .powerAdj ∧ s.flag c = true ∧ s.world.accepts c = false ∧ (s.world.faultTotal = 0 ∨ s.world.faultTotal = 1)))
deriving Decidable

/-- What is found for a command whose flag is set is the answer it awaits: alone, to a start or a stop, and the record says so. -/
def AnswerAllowed (s : Energycon) (a : Account) (c : ChargeCmd) : Prop :=
  s.flag c = true →
    (Energycon.found s c = none ∧ a.answer = none) ∨
      (Energycon.found s c ≠ none ∧ s.hplc.Unlocked ∧ c ≠ .powerAdj ∧ a.answer = some (Energycon.given s c) ∧ a.waiting = 1)
deriving Decidable

/-- Nothing but one command that can be taken as asked is in the mask when it is taken, and the answers found are the ones awaited. -/
def AckAllowed (t : Ledgered) : EnergyOp → Prop
  | .ctrlData =>
    match takenCmd t.ctrl.mask.strategyEvent with
    | none => ∀ c : ChargeCmd, t.ctrl.mask.bits c.event = false
    | some c => TakeAllowed t.ctrl c
  | .pileData => ∀ c, AnswerAllowed t.ctrl (t.ledger c) c
  | _ => True

instance (t : Ledgered) : ∀ op, Decidable (AckAllowed t op)
  | .ctrlData =>
    match h : takenCmd t.ctrl.mask.strategyEvent with
    | none => decidable_of_iff (∀ c : ChargeCmd, t.ctrl.mask.bits c.event = false) (by rw [AckAllowed, h])
    | some c => decidable_of_iff (TakeAllowed t.ctrl c) (by rw [AckAllowed, h])
  | .pileData => inferInstanceAs (Decidable (∀ _, _))
  | .post _ | .slots | .receive _ | .turn | .second | .pileEvent _ | .timeout _ | .fault _ | .clock _ | .plan _ => isTrue trivial

/-! ## A command is taken -/

/-- Taking a command asks for something that was not done before. -/
theorem Account.Kept.not_take {a : Account} (h : a.Kept s c) (hacks : Energycon.acksOf s' c = Energycon.acksOf s c)
    (hforwarded : Energycon.forwardedOf s' c = Energycon.forwardedOf s c) (fault assetOk : Bool) :
    ¬ (a.take fault assetOk).Kept s' c := by
  rintro ⟨hacks', hforwarded', -⟩
  rw [hacks, h.acks] at hacks'
  rw [hforwarded, h.forwarded] at hforwarded'
  unfold Account.take at hacks' hforwarded'
  split_ifs at hacks' hforwarded'
  · simp at hacks'
  · simp at hforwarded'
  · simp at hacks'

theorem acksOf_of_append {outcome : Byte} (h : s'.world.acks = s.world.acks ++ [(c, outcome)]) (d : ChargeCmd) :
    Energycon.acksOf s' d = Energycon.acksOf s d ++ (if c = d then [outcome] else []) := by
  rw [Energycon.acksOf, h, List.filter_append, List.map_append, List.filter_singleton, Energycon.acksOf]
  by_cases hd : c = d
  · simp [hd]
  · simp [hd]

theorem Taken.of_accepts (h : Taken c s s') (haccepts : s.world.accepts c = true) (d : ChargeCmd) :
    Energycon.acksOf s' d = Energycon.acksOf s d ∧
      Energycon.forwardedOf s' d = Energycon.forwardedOf s d + (if c = d then 1 else 0) := by
  have hworld : s'.world = s.world.forward c := by rw [h.world, Router.taken, if_pos haccepts]
  constructor
  · rw [Energycon.acksOf, hworld, Router.forward_acks, Energycon.acksOf]
  · rw [Energycon.forwardedOf, hworld, Router.forward_forwarded, List.count_append, List.count_singleton, Energycon.forwardedOf]
    simp only [beq_iff_eq]

theorem Taken.of_refuses (h : Taken c s s') (haccepts : s.world.accepts c = false) (d : ChargeCmd) :
    Energycon.acksOf s' d = Energycon.acksOf s d ++ (if c = d then [s.world.refusal c] else []) ∧
      Energycon.forwardedOf s' d = Energycon.forwardedOf s d := by
  have hworld : s'.world = (s.world.refuse c (s.world.refusal c)).acknowledge c := by
    rw [h.world, Router.taken, haccepts]
    rfl
  constructor
  · refine acksOf_of_append ?_ d
    rw [hworld, Router.acknowledge, Router.refuse_acks, Router.refuse_ctrl_self]
  · rw [Energycon.forwardedOf, hworld, Router.acknowledge, Router.refuse_forwarded, Energycon.forwardedOf]

theorem Taken.kept_of_ne (h : Taken c s s') (hd : d ≠ c) {a : Account} (ha : a.Kept s d) :
    a.Kept s' d := by
  have hflag : s'.flag d = s.flag d := by
    rw [h.flag d, decide_eq_false hd, Bool.or_false]
  cases haccepts : s.world.accepts c with
  | true =>
    obtain ⟨hacks, hforwarded⟩ := h.of_accepts haccepts d
    rw [if_neg hd.symm, Nat.add_zero] at hforwarded
    exact ⟨hacks.trans ha.acks, hforwarded.trans ha.forwarded, hflag.trans ha.flag⟩
  | false =>
    obtain ⟨hacks, hforwarded⟩ := h.of_refuses haccepts d
    rw [if_neg hd.symm, List.append_nil] at hacks
    exact ⟨hacks.trans ha.acks, hforwarded.trans ha.forwarded, hflag.trans ha.flag⟩

/-- A command that passes the checks finds no value `TRUE` in the fault word. -/
theorem Router.accepts_of_ok {w : Router} (hfault : w.faultTotal = 0) (hasset : (w.finding c).assetOk = true) :
    w.accepts c = true := by
  have hnot : (w.finding c).faultTotal = false := by
    simp [Router.finding, hfault]
  rw [Router.accepts, hnot, hasset]
  rfl

/-- When the command that was taken is dealt with as the ledger asks. -/
theorem Taken.kept_iff (h : Taken c s s') {a : Account} (ha : a.Kept s c) :
    (a.take (s.world.faultTotal ≠ 0) (s.world.finding c).assetOk).Kept s' c ↔
      (s.world.faultTotal = 0 ∧ (s.world.finding c).assetOk = true) ∨
        (s.flag c = true ∧ s.world.accepts c = false ∧ (s.world.faultTotal = 0 ∨ s.world.faultTotal = 1)) := by
  have hflag : s'.flag c = true := by
    rw [h.flag c, decide_eq_true rfl, Bool.or_true]
  cases haccepts : s.world.accepts c with
  | true =>
    obtain ⟨hacks, hforwarded⟩ := h.of_accepts haccepts c
    rw [if_pos rfl] at hforwarded
    constructor
    · rintro ⟨hacks', -, -⟩
      rw [hacks, ha.acks] at hacks'
      by_cases hfault : s.world.faultTotal = 0
      · refine .inl ⟨hfault, ?_⟩
        by_contra hasset
        simp [Account.take, hfault, hasset] at hacks'
      · rw [decide_eq_true hfault] at hacks'
        simp [Account.take] at hacks'
    · rintro (⟨hfault, hasset⟩ | ⟨-, hrefused, -⟩)
      · have htake : a.take (s.world.faultTotal ≠ 0) (s.world.finding c).assetOk =
            { a with forwarded := a.forwarded + 1, waiting := a.waiting + 1 } := by
          simp [Account.take, hfault, hasset]
        rw [htake]
        refine ⟨hacks.trans ha.acks, by rw [hforwarded, ha.forwarded], ?_⟩
        rw [hflag]
        exact (decide_eq_true (Nat.succ_pos _)).symm
      · cases hrefused
  | false =>
    obtain ⟨hacks, hforwarded⟩ := h.of_refuses haccepts c
    rw [if_pos rfl] at hacks
    have hnot : s.world.faultTotal = 0 → (s.world.finding c).assetOk = false := by
      intro hfault
      by_contra hasset
      rw [Router.accepts_of_ok hfault (Bool.eq_true_of_not_eq_false hasset)] at haccepts
      cases haccepts
    have htake : a.take (s.world.faultTotal ≠ 0) (s.world.finding c).assetOk =
        { a with acks := a.acks ++ [if s.world.faultTotal ≠ 0 then failed else orthers] } := by
      by_cases hfault : s.world.faultTotal = 0
      · simp [Account.take, hfault, hnot hfault]
      · rw [decide_eq_true hfault, if_pos hfault]
        rfl
    have hrefusal : s.world.refusal c = if s.world.faultTotal = 1 then failed else orthers := by
      simp [Router.refusal, Router.finding]
    rw [htake]
    constructor
    · rintro ⟨hacks', -, hflag'⟩
      rw [hacks, ha.acks, hrefusal] at hacks'
      have houtcome := List.append_cancel_left hacks'
      refine .inr ⟨?_, rfl, ?_⟩
      · rw [ha.flag, ← hflag', hflag]
      · by_cases hzero : s.world.faultTotal = 0
        · exact .inl hzero
        · by_cases hone : s.world.faultTotal = 1
          · exact .inr hone
          · rw [if_neg hone, if_pos hzero] at houtcome
            cases houtcome
    · rintro (⟨hfault, hasset⟩ | ⟨hset, -, hfault⟩)
      · rw [hnot hfault] at hasset
        cases hasset
      · refine ⟨?_, hforwarded.trans ha.forwarded, ?_⟩
        · rw [hacks, ha.acks, hrefusal]
          rcases hfault with hzero | hone
          · rw [hzero]
            rfl
          · rw [hone]
            rfl
        · rw [hflag, ← hset]
          exact ha.flag

/-- All is done that is due, an answer stands only for a command that awaits one, the mask's own flags are clear, and the port's
flags are set while a power adjustment awaits its answer. -/
structure LedgerInv (t : Ledgered) : Prop where
  kept : ∀ c, (t.ledger c).Kept t.ctrl c
  answer : ∀ c, (t.ledger c).waiting = 0 → (t.ledger c).answer = none
  free : t.ctrl.mask.Free
  locked : t.ctrl.flag .powerAdj = true → ¬ t.ctrl.hplc.Unlocked

theorem bits_of_taken (h : takenCmd s.mask.strategyEvent = some c) (d : ChargeCmd) :
    s.mask.bits d.event = decide (d = c) := by
  rw [StrategyMask.bits, (takenCmd_eq_some_iff _ c).mp h, CtrlEvent.getLsbD_event]
  cases c <;> cases d <;> rfl

theorem nextLedger_of_taken {ledger : ChargeCmd → Account} (h : takenCmd s.mask.strategyEvent = some c) (d : ChargeCmd) :
    nextLedger s s' ledger .ctrlData d =
      if d = c then (ledger c).take (s.world.faultTotal ≠ 0) (s.world.finding c).assetOk else ledger d := by
  rw [nextLedger, bits_of_taken h d]
  by_cases hd : d = c
  · simp [hd]
  · simp [hd]

/-- Commands are taken as asked exactly when they are allowed. -/
theorem LedgerInv.ctrlData_iff {t : Ledgered} (h : LedgerInv t) : AckAllowed t .ctrlData ↔ Lawful t .ctrlData := by
  cases htaken : takenCmd t.ctrl.mask.strategyEvent with
  | none =>
    have hstep : t.step .ctrlData =
        some ⟨{ t.ctrl with mask := ⟨false, false, 0⟩ },
          nextLedger t.ctrl { t.ctrl with mask := ⟨false, false, 0⟩ } t.ledger .ctrlData⟩ := by
      rw [Ledgered.step, Energycon.step, ctrlDataTurn_of_none h.free htaken, Option.map_some]
    rw [AckAllowed, htaken]
    constructor
    · intro hbits
      refine ⟨fun _ => ⟨_, hstep⟩, ?_⟩
      intro t' ht' c
      cases hstep.symm.trans ht'
      obtain ⟨hacks, hforwarded, hflag⟩ := h.kept c
      simp only [nextLedger, hbits c, Bool.false_eq_true, if_false]
      refine ⟨hacks, hforwarded, ?_⟩
      rw [← hflag]
      cases c <;> rfl
    · rintro ⟨-, hkept⟩ c
      by_contra hbit
      have hdue := hkept _ hstep c
      simp only [nextLedger, Bool.eq_true_of_not_eq_false hbit, if_true] at hdue
      refine (h.kept c).not_take ?_ ?_ _ _ hdue
      · rfl
      · rfl
  | some c =>
    rw [AckAllowed, htaken]
    have hthis : ∀ s', Taken c t.ctrl s' →
        ((∀ d, (nextLedger t.ctrl s' t.ledger .ctrlData d).Kept s' d) ↔
          (t.ctrl.world.faultTotal = 0 ∧ (t.ctrl.world.finding c).assetOk = true) ∨
            (t.ctrl.flag c = true ∧ t.ctrl.world.accepts c = false ∧
              (t.ctrl.world.faultTotal = 0 ∨ t.ctrl.world.faultTotal = 1))) := by
      intro s' hs'
      rw [← hs'.kept_iff (h.kept c)]
      constructor
      · intro hall
        have hc := hall c
        rwa [nextLedger_of_taken htaken, if_pos rfl] at hc
      · intro hc d
        rw [nextLedger_of_taken htaken]
        by_cases hd : d = c
        · rw [if_pos hd, hd]
          exact hc
        · rw [if_neg hd]
          exact hs'.kept_of_ne hd (h.kept d)
    -- when the call returns exactly under a condition, it is lawful exactly when the command is dealt with as asked, too
    have hlawful : ∀ {returns : Prop}, Outcome (ctrlDataTurn t.ctrl) returns (Taken c t.ctrl) →
        (Lawful t .ctrlData ↔ returns ∧ ((t.ctrl.world.faultTotal = 0 ∧ (t.ctrl.world.finding c).assetOk = true) ∨
          (t.ctrl.flag c = true ∧ t.ctrl.world.accepts c = false ∧
            (t.ctrl.world.faultTotal = 0 ∨ t.ctrl.world.faultTotal = 1)))) := by
      intro returns houtcome
      constructor
      · rintro ⟨hreturn, hkept⟩
        obtain ⟨t', ht'⟩ := hreturn (.inl rfl)
        have hdue := hkept t' ht'
        obtain ⟨s', hs', rfl⟩ := Option.map_eq_some_iff.mp ht'
        refine ⟨?_, (hthis s' (houtcome.post_of_some hs')).mp hdue⟩
        by_contra hnot
        cases hs'.symm.trans (houtcome.stuck hnot)
      · rintro ⟨hreturns, hdue⟩
        obtain ⟨s', hs', htaken'⟩ := houtcome.returned hreturns
        have hstep : t.step .ctrlData = some ⟨s', nextLedger t.ctrl s' t.ledger .ctrlData⟩ := by
          rw [Ledgered.step, Energycon.step, hs', Option.map_some]
        refine ⟨fun _ => ⟨_, hstep⟩, ?_⟩
        intro t' ht'
        cases hstep.symm.trans ht'
        exact (hthis s' htaken').mpr hdue
    dsimp only
    unfold TakeAllowed
    by_cases hc : c = .powerAdj
    · subst hc
      rw [hlawful (ctrlDataTurn_powerAdj_outcome h.free htaken)]
      constructor
      · rintro ⟨hunlocked, hok | ⟨hne, -⟩⟩
        · exact ⟨⟨hunlocked, Router.accepts_of_ok hok.1 hok.2⟩, .inl hok⟩
        · exact absurd rfl hne
      · rintro ⟨⟨hunlocked, haccepts⟩, hok | ⟨-, hrefused, -⟩⟩
        · exact ⟨hunlocked, .inl hok⟩
        · rw [haccepts] at hrefused
          cases hrefused
    · rw [hlawful (ctrlDataTurn_outcome h.free htaken hc)]
      simp only [ne_eq, hc, not_false_eq_true, true_and]

/-! ## The answers of the pile are taken -/

/-- What the part of one command leaves alone. -/
structure PartFrame (c : ChargeCmd) (s s' : Energycon) : Prop where
  kept : ∀ d, d ≠ c → ∀ a : Account, a.Kept s' d ↔ a.Kept s d
  flag : ∀ d, d ≠ c → s'.flag d = s.flag d
  found : ∀ d, d ≠ c → Energycon.found s' d = Energycon.found s d
  given : c = .start → Energycon.given s' .stop = Energycon.given s .stop
  unlocked : s'.hplc.Unlocked ↔ s.hplc.Unlocked
  mask : s'.mask = s.mask

theorem PartFrame.refl (c : ChargeCmd) (s : Energycon) : PartFrame c s s :=
  ⟨fun _ _ _ => Iff.rfl, fun _ _ => rfl, fun _ _ => rfl, fun _ => rfl, Iff.rfl, rfl⟩

theorem ChargeCmd.events_ne (h : d ≠ c) :
    d.okEvent ≠ c.okEvent ∧ d.okEvent ≠ c.erEvent ∧ d.erEvent ≠ c.okEvent ∧ d.erEvent ≠ c.erEvent := by
  cases c <;> cases d <;> first | exact absurd rfl h | exact ⟨nofun, nofun, nofun, nofun⟩

theorem Answered.frame (h : Answered c s s') (hunlocked : s.hplc.Unlocked) :
    PartFrame c s s' := by
  have hflag : ∀ d, d ≠ c → s'.flag d = s.flag d := by
    intro d hd
    rw [h.flag d, decide_eq_true hd, Bool.and_true]
  have hok : ∀ d, d ≠ c → s'.world.chargePileEvent d.okEvent = s.world.chargePileEvent d.okEvent := by
    intro d hd
    obtain ⟨hokok, hoker, -, -⟩ := ChargeCmd.events_ne hd
    exact h.events _ hokok hoker
  have her : ∀ d, d ≠ c → s'.world.chargePileEvent d.erEvent = s.world.chargePileEvent d.erEvent := by
    intro d hd
    obtain ⟨-, -, herok, herer⟩ := ChargeCmd.events_ne hd
    exact h.events _ herok herer
  refine ⟨?_, hflag, ?_, ?_, ⟨fun _ => hunlocked, fun _ => h.unlocked⟩, h.mask⟩
  · intro d hd a
    have hacks : Energycon.acksOf s' d = Energycon.acksOf s d := by
      rw [acksOf_of_append h.acks, if_neg hd.symm, List.append_nil]
    have hforwarded : Energycon.forwardedOf s' d = Energycon.forwardedOf s d := by
      rw [Energycon.forwardedOf, h.forwarded, Energycon.forwardedOf]
    constructor
    · rintro ⟨h₁, h₂, h₃⟩
      exact ⟨hacks.symm.trans h₁, hforwarded.symm.trans h₂, (hflag d hd).symm.trans h₃⟩
    · rintro ⟨h₁, h₂, h₃⟩
      exact ⟨hacks.trans h₁, hforwarded.trans h₂, (hflag d hd).trans h₃⟩
  · intro d hd
    rw [Energycon.found, hok d hd, her d hd, Energycon.found]
  · rintro rfl
    have hrecord := h.record rfl
    rw [Energycon.given, Energycon.given, hok .stop (by decide)]
    change (if _ then _ else (s'.world.ctrl .stop).cSucIdle) = if _ then _ else (s.world.ctrl .stop).cSucIdle
    rw [hrecord]

/-- The part of a start or a stop leaves the other commands alone. -/
theorem pilePart_frame (hcall : pilePart c s = some s') (hc : c ≠ .powerAdj) :
    PartFrame c s s' := by
  by_cases hidle : s.flag c = true → Energycon.found s c = none
  · rw [pilePart_idle hidle] at hcall
    cases hcall
    exact PartFrame.refl c s
  · obtain ⟨hflag, hfound⟩ := Classical.not_imp.mp hidle
    obtain ⟨answer, hanswer⟩ := Option.ne_none_iff_exists'.mp hfound
    have houtcome := pilePart_outcome hc hflag hanswer
    have hunlocked : s.hplc.Unlocked := by
      by_contra hnot
      cases hcall.symm.trans (houtcome.stuck hnot)
    exact (houtcome.post_of_some hcall).frame hunlocked

/-- The part of a power adjustment does nothing, or it waits forever. -/
theorem pilePart_powerAdj_eq (hlocked : s.flag .powerAdj = true → ¬ s.hplc.Unlocked) (hcall : pilePart .powerAdj s = some s') :
    s' = s := by
  by_cases hidle : s.flag .powerAdj = true → Energycon.found s .powerAdj = none
  · rw [pilePart_idle hidle] at hcall
    cases hcall
    rfl
  · obtain ⟨hflag, hfound⟩ := Classical.not_imp.mp hidle
    obtain ⟨answer, hanswer⟩ := Option.ne_none_iff_exists'.mp hfound
    cases hcall.symm.trans (pilePart_powerAdj_locked hflag (hlocked hflag) hanswer)

/-- An answer is dealt with as asked exactly when it is allowed. -/
theorem pilePart_iff {a : Account} (ha : a.Kept s c) (hanswer : a.waiting = 0 → a.answer = none)
    (hlocked : s.flag .powerAdj = true → ¬ s.hplc.Unlocked) :
    AnswerAllowed s a c ↔ ∃ s', pilePart c s = some s' ∧ a.settle.Kept s' c := by
  by_cases hidle : s.flag c = true → Energycon.found s c = none
  · rw [pilePart_idle hidle]
    constructor
    · intro hallowed
      have hnone : a.answer = none := by
        by_cases hflag : s.flag c = true
        · rcases hallowed hflag with ⟨-, hnone⟩ | ⟨hfound, -⟩
          · exact hnone
          · exact absurd (hidle hflag) hfound
        · refine hanswer (Nat.eq_zero_of_not_pos ?_)
          intro hpos
          rw [ha.flag, decide_eq_true hpos] at hflag
          exact hflag rfl
      refine ⟨s, rfl, ?_⟩
      rw [Account.settle, hnone]
      exact ha
    · rintro ⟨s', hs', hkept⟩ hflag
      cases hs'
      refine .inl ⟨hidle hflag, ?_⟩
      by_contra hsome
      obtain ⟨answer, hsome⟩ := Option.ne_none_iff_exists'.mp hsome
      have hacks := hkept.acks
      rw [ha.acks, Account.settle, hsome] at hacks
      simp at hacks
  · obtain ⟨hflag, hfound⟩ := Classical.not_imp.mp hidle
    obtain ⟨answer, hsome⟩ := Option.ne_none_iff_exists'.mp hfound
    have hwaiting : 0 < a.waiting := by
      rw [ha.flag] at hflag
      exact of_decide_eq_true hflag
    constructor
    · intro hallowed
      rcases hallowed hflag with ⟨hnone, -⟩ | ⟨-, hunlocked, hc, hgiven, hone⟩
      · exact absurd hnone hfound
      · obtain ⟨s', hs', hanswered⟩ := (pilePart_outcome hc hflag hsome).returned hunlocked
        refine ⟨s', hs', ?_⟩
        rw [Account.settle, hgiven]
        refine ⟨?_, ?_, ?_⟩
        · rw [acksOf_of_append hanswered.acks, if_pos rfl, ha.acks]
        · rw [Energycon.forwardedOf, hanswered.forwarded]
          exact ha.forwarded
        · rw [hanswered.flag c]
          simp [hone]
    · rintro ⟨s', hs', hkept⟩ -
      by_cases hc : c = .powerAdj
      · subst hc
        cases hs'.symm.trans (pilePart_powerAdj_locked hflag (hlocked hflag) hsome)
      · have houtcome := pilePart_outcome hc hflag hsome
        have hunlocked : s.hplc.Unlocked := by
          by_contra hnot
          cases hs'.symm.trans (houtcome.stuck hnot)
        have hanswered := houtcome.post_of_some hs'
        have hacks := hkept.acks
        have hclear := hkept.flag
        rw [acksOf_of_append hanswered.acks, if_pos rfl, ha.acks] at hacks
        rw [hanswered.flag c] at hclear
        unfold Account.settle at hacks hclear
        cases hdue : a.answer with
        | none =>
          rw [hdue] at hacks
          simp at hacks
        | some due =>
          rw [hdue] at hacks hclear
          have heq := List.append_cancel_left hacks
          simp only [List.cons.injEq, and_true] at heq
          have hone : a.waiting = 1 := by
            simp at hclear
            omega
          exact .inr ⟨hfound, hunlocked, hc, by rw [heq], hone⟩

/-- Whether an answer is allowed does not depend on the parts run before. -/
theorem PartFrame.answerAllowed_iff (h : PartFrame c s s') (d : ChargeCmd) (hd : d ≠ c)
    (hgiven : d ≠ .powerAdj → Energycon.given s' d = Energycon.given s d) (a : Account) :
    AnswerAllowed s' a d ↔ AnswerAllowed s a d := by
  unfold AnswerAllowed
  rw [h.flag d hd, h.found d hd, h.unlocked]
  by_cases hpower : d = .powerAdj
  · simp [hpower]
  · rw [hgiven hpower]

theorem PartFrame.locked (h : PartFrame c s s') (hc : .powerAdj ≠ c) (hlocked : s.flag .powerAdj = true → ¬ s.hplc.Unlocked) :
    s'.flag .powerAdj = true → ¬ s'.hplc.Unlocked := by
  rw [h.flag _ hc, h.unlocked]
  exact hlocked

/-- The three parts one after the other, each with what it leaves alone. -/
theorem pileDataRecProcess_parts (hlocked : s.flag .powerAdj = true → ¬ s.hplc.Unlocked) (hcall : pileDataRecProcess s = some s') :
    ∃ s₁, pilePart .start s = some s₁ ∧ pilePart .stop s₁ = some s' ∧ pilePart .powerAdj s' = some s' ∧
      PartFrame .start s s₁ ∧ PartFrame .stop s₁ s' := by
  obtain ⟨s₁, h₁, hcall⟩ := Option.bind_eq_some_iff.mp hcall
  obtain ⟨s₂, h₂, h₃⟩ := Option.bind_eq_some_iff.mp hcall
  have hframe₁ := pilePart_frame h₁ nofun
  have hframe₂ := pilePart_frame h₂ nofun
  have heq := pilePart_powerAdj_eq (hframe₂.locked nofun (hframe₁.locked nofun hlocked)) h₃
  subst heq
  exact ⟨s₁, h₁, h₂, h₃, hframe₁, hframe₂⟩

/-- Answers are taken as asked exactly when they are allowed. -/
theorem LedgerInv.pileData_iff {t : Ledgered} (h : LedgerInv t) : AckAllowed t .pileData ↔ Lawful t .pileData := by
  have hpart : ∀ {c : ChargeCmd} {s : Energycon}, (t.ledger c).Kept s c → (s.flag .powerAdj = true → ¬ s.hplc.Unlocked) →
      (AnswerAllowed s (t.ledger c) c ↔ ∃ s', pilePart c s = some s' ∧ (t.ledger c).settle.Kept s' c) :=
    fun {c _} hkept hlocked => pilePart_iff hkept (h.answer c) hlocked
  rw [AckAllowed]
  constructor
  · intro hallowed
    obtain ⟨s₁, h₁, hkept₁⟩ := (hpart (h.kept .start) h.locked).mp (hallowed .start)
    have hframe₁ := pilePart_frame h₁ nofun
    have hlocked₁ := hframe₁.locked nofun h.locked
    obtain ⟨s₂, h₂, hkept₂⟩ := (hpart ((hframe₁.kept .stop nofun _).mpr (h.kept .stop)) hlocked₁).mp
      ((hframe₁.answerAllowed_iff .stop nofun (fun _ => hframe₁.given rfl) _).mpr (hallowed .stop))
    have hframe₂ := pilePart_frame h₂ nofun
    have hlocked₂ := hframe₂.locked nofun hlocked₁
    have hpower : AnswerAllowed s₂ (t.ledger .powerAdj) .powerAdj :=
      (hframe₂.answerAllowed_iff .powerAdj nofun (fun hne => absurd rfl hne) _).mpr
        ((hframe₁.answerAllowed_iff .powerAdj nofun (fun hne => absurd rfl hne) _).mpr (hallowed .powerAdj))
    have hkept : (t.ledger .powerAdj).Kept s₂ .powerAdj :=
      (hframe₂.kept .powerAdj nofun _).mpr ((hframe₁.kept .powerAdj nofun _).mpr (h.kept .powerAdj))
    obtain ⟨s₃, h₃, hkept₃⟩ := (hpart hkept hlocked₂).mp hpower
    have heq := pilePart_powerAdj_eq hlocked₂ h₃
    subst heq
    have hstep : t.step .pileData = some ⟨s₃, nextLedger t.ctrl s₃ t.ledger .pileData⟩ := by
      have hcall : pileDataRecProcess t.ctrl = some s₃ := by
        rw [pileDataRecProcess, h₁, Option.bind_eq_bind, Option.bind_some, h₂, Option.bind_some, h₃]
      rw [Ledgered.step, Energycon.step, hcall, Option.map_some]
    refine ⟨fun _ => ⟨_, hstep⟩, ?_⟩
    intro t' ht' c
    cases hstep.symm.trans ht'
    cases c with
    | start => exact (hframe₂.kept .start nofun _).mpr hkept₁
    | stop => exact hkept₂
    | powerAdj => exact hkept₃
  · rintro ⟨hreturns, hlawful⟩
    obtain ⟨t', ht'⟩ := hreturns (.inr rfl)
    have hkept := hlawful t' ht'
    obtain ⟨s', hs', rfl⟩ := Option.map_eq_some_iff.mp ht'
    obtain ⟨s₁, h₁, h₂, h₃, hframe₁, hframe₂⟩ := pileDataRecProcess_parts h.locked hs'
    have hlocked₁ := hframe₁.locked nofun h.locked
    have hlocked₂ := hframe₂.locked nofun hlocked₁
    intro c
    cases c with
    | start => exact (hpart (h.kept .start) h.locked).mpr ⟨s₁, h₁, (hframe₂.kept .start nofun _).mp (hkept .start)⟩
    | stop =>
      refine (hframe₁.answerAllowed_iff .stop nofun (fun _ => hframe₁.given rfl) _).mp ?_
      exact (hpart ((hframe₁.kept .stop nofun _).mpr (h.kept .stop)) hlocked₁).mpr ⟨s', h₂, hkept .stop⟩
    | powerAdj =>
      refine (hframe₁.answerAllowed_iff .powerAdj nofun (fun hne => absurd rfl hne) _).mp ?_
      refine (hframe₂.answerAllowed_iff .powerAdj nofun (fun hne => absurd rfl hne) _).mp ?_
      refine (hpart ?_ hlocked₂).mpr ⟨s', h₃, hkept .powerAdj⟩
      exact (hframe₂.kept .powerAdj nofun _).mpr ((hframe₁.kept .powerAdj nofun _).mpr (h.kept .powerAdj))

/-! ## Runs -/

theorem Account.noteAll_kept (a : Account) (c : ChargeCmd) (events : List PileEvent) :
    (a.noteAll c events).acks = a.acks ∧ (a.noteAll c events).forwarded = a.forwarded ∧
      (a.noteAll c events).waiting = a.waiting ∧ ((a.waiting = 0 → a.answer = none) →
        (a.noteAll c events).waiting = 0 → (a.noteAll c events).answer = none) := by
  induction events generalizing a with
  | nil => exact ⟨rfl, rfl, rfl, fun h => h⟩
  | cons e events ih =>
    have hone : ((c.answerOf e).elim a a.note).acks = a.acks ∧ ((c.answerOf e).elim a a.note).forwarded = a.forwarded ∧
        ((c.answerOf e).elim a a.note).waiting = a.waiting ∧
        ((a.waiting = 0 → a.answer = none) → a.waiting = 0 → ((c.answerOf e).elim a a.note).answer = none) := by
      cases c.answerOf e with
      | none => exact ⟨rfl, rfl, rfl, fun h => h⟩
      | some answer =>
        change (a.note answer).acks = _ ∧ (a.note answer).forwarded = _ ∧ (a.note answer).waiting = _ ∧
          (_ → _ → (a.note answer).answer = none)
        unfold Account.note
        split_ifs with hawaited
        · exact ⟨rfl, rfl, rfl, fun _ hzero => absurd hzero (Nat.pos_iff_ne_zero.mp hawaited.1)⟩
        · exact ⟨rfl, rfl, rfl, fun h => h⟩
    obtain ⟨hacks, hforwarded, hwaiting, hanswer⟩ := hone
    obtain ⟨hacks', hforwarded', hwaiting', hanswer'⟩ := ih ((c.answerOf e).elim a a.note)
    refine ⟨hacks'.trans hacks, hforwarded'.trans hforwarded, hwaiting'.trans hwaiting, ?_⟩
    intro h
    refine hanswer' ?_
    rw [hwaiting]
    exact hanswer h

/-- Everything but the two calls of the thread leaves alone what the thread has done. -/
theorem Energycon.step_aside (hcall : Energycon.step s op = some s') (hctrl : op ≠ .ctrlData) (hpile : op ≠ .pileData) :
    s'.flag = s.flag ∧ s'.world.acks = s.world.acks ∧ s'.world.forwarded = s.world.forwarded ∧
      (s'.hplc.Unlocked ↔ s.hplc.Unlocked) ∧ (s.mask.Free → s'.mask.Free) := by
  have hworld : ∀ w : Router, w.acks = s.world.acks → w.forwarded = s.world.forwarded →
      (s.setWorld w).flag = s.flag ∧ (s.setWorld w).world.acks = s.world.acks ∧
        (s.setWorld w).world.forwarded = s.world.forwarded ∧ ((s.setWorld w).hplc.Unlocked ↔ s.hplc.Unlocked) ∧
          (s.mask.Free → (s.setWorld w).mask.Free) :=
    fun w hacks hforwarded => ⟨funext fun c => EnergyControl.flag_setWorld s w c, hacks, hforwarded, Iff.rfl, fun h => h⟩
  cases op
  case ctrlData => exact absurd rfl hctrl
  case pileData => exact absurd rfl hpile
  case post e =>
    obtain ⟨mask, hmask, rfl⟩ := Option.map_eq_some_iff.mp hcall
    refine ⟨rfl, rfl, rfl, Iff.rfl, ?_⟩
    intro hfree
    rw [strategyEventSend, if_pos hfree] at hmask
    cases hmask
    exact ⟨rfl, rfl⟩
  case slots =>
    obtain ⟨w, hw, rfl⟩ := Option.map_eq_some_iff.mp hcall
    exact hworld w (slotTurn_frame hw).acks (slotTurn_frame hw).forwarded
  case receive msg =>
    obtain ⟨pile, -, rfl⟩ := Option.map_eq_some_iff.mp hcall
    exact hworld _ rfl rfl
  case timeout c =>
    rw [Energycon.step] at hcall
    split_ifs at hcall
    · obtain ⟨w, hw, rfl⟩ := Option.map_eq_some_iff.mp hcall
      obtain ⟨out, -, rfl⟩ := Option.map_eq_some_iff.mp hw
      exact hworld _ rfl rfl
    · cases hcall
      exact ⟨rfl, rfl, rfl, Iff.rfl, fun h => h⟩
  all_goals
    cases hcall
    exact hworld _ rfl rfl

/-- What a step other than the two calls notes in the ledger. -/
theorem nextLedger_aside (s s' : Energycon) (ledger : ChargeCmd → Account) (hctrl : op ≠ .ctrlData) (hpile : op ≠ .pileData)
    (c : ChargeCmd) : ∃ events, nextLedger s s' ledger op c = (ledger c).noteAll c events := by
  cases op
  case ctrlData => exact absurd rfl hctrl
  case pileData => exact absurd rfl hpile
  case pileEvent e => exact ⟨[e], rfl⟩
  all_goals exact ⟨_, rfl⟩

theorem LedgerInv.aside {t : Ledgered} (h : LedgerInv t) (hctrl : op ≠ .ctrlData) (hpile : op ≠ .pileData) :
    Lawful t op := by
  refine ⟨fun hcall => (hcall.elim hctrl hpile).elim, ?_⟩
  intro t' ht' c
  obtain ⟨s', hs', rfl⟩ := Option.map_eq_some_iff.mp ht'
  obtain ⟨hflag, hacks, hforwarded, -, -⟩ := Energycon.step_aside hs' hctrl hpile
  obtain ⟨events, hnote⟩ := nextLedger_aside t.ctrl s' t.ledger hctrl hpile c
  obtain ⟨hacks', hforwarded', hwaiting', -⟩ := (t.ledger c).noteAll_kept c events
  obtain ⟨hkacks, hkforwarded, hkflag⟩ := h.kept c
  dsimp only
  rw [hnote]
  refine ⟨?_, ?_, ?_⟩
  · rw [hacks', ← hkacks, Energycon.acksOf, hacks, Energycon.acksOf]
  · rw [hforwarded', ← hkforwarded, Energycon.forwardedOf, hforwarded, Energycon.forwardedOf]
  · rw [hwaiting', ← hkflag, hflag]

/-- An answer stands only for a command that awaits one, also after the calls. -/
theorem Account.take_answer {a : Account} (h : a.waiting = 0 → a.answer = none) (fault assetOk : Bool) :
    (a.take fault assetOk).waiting = 0 → (a.take fault assetOk).answer = none := by
  unfold Account.take
  split_ifs
  · exact h
  · intro hzero
    cases hzero
  · exact h

theorem Account.settle_answer (a : Account) : a.settle.answer = none := by
  unfold Account.settle
  split
  next hnone => exact hnone
  next => rfl

theorem LedgerInv.step {t t' : Ledgered} (h : LedgerInv t) (hlawful : Lawful t op) (hstep : t.step op = some t') :
    LedgerInv t' := by
  have hkept := hlawful.2 t' hstep
  obtain ⟨s', hs', rfl⟩ := Option.map_eq_some_iff.mp hstep
  by_cases hctrl : op = .ctrlData
  · subst hctrl
    have hanswer : ∀ c, (nextLedger t.ctrl s' t.ledger .ctrlData c).waiting = 0 →
        (nextLedger t.ctrl s' t.ledger .ctrlData c).answer = none := by
      intro c
      unfold nextLedger
      dsimp only
      split_ifs
      · exact Account.take_answer (h.answer c) _ _
      · exact h.answer c
    cases htaken : takenCmd t.ctrl.mask.strategyEvent with
    | none =>
      rw [Energycon.step, ctrlDataTurn_of_none h.free htaken] at hs'
      cases hs'
      exact ⟨hkept, hanswer, ⟨rfl, rfl⟩, h.locked⟩
    | some c =>
      by_cases hc : c = .powerAdj
      · subst hc
        have htaken' := (ctrlDataTurn_powerAdj_outcome h.free htaken).post_of_some hs'
        exact ⟨hkept, hanswer, htaken'.mask ▸ ⟨rfl, rfl⟩, fun _ hunlocked => htaken'.unlocked.mp hunlocked rfl⟩
      · have houtcome := ctrlDataTurn_outcome h.free htaken hc
        have htaken' := houtcome.post_of_some hs'
        refine ⟨hkept, hanswer, htaken'.mask ▸ ⟨rfl, rfl⟩, ?_⟩
        intro hflag
        rw [htaken'.flag, decide_eq_false (Ne.symm hc), Bool.or_false] at hflag
        cases hs'.symm.trans (houtcome.stuck (h.locked hflag))
  · by_cases hpile : op = .pileData
    · subst hpile
      obtain ⟨s₁, -, -, -, hframe₁, hframe₂⟩ := pileDataRecProcess_parts h.locked hs'
      refine ⟨hkept, fun c _ => (t.ledger c).settle_answer, ?_, hframe₂.locked nofun (hframe₁.locked nofun h.locked)⟩
      rw [hframe₂.mask, hframe₁.mask]
      exact h.free
    · obtain ⟨hflag, -, -, hunlocked, hfree⟩ := Energycon.step_aside hs' hctrl hpile
      refine ⟨hkept, ?_, hfree h.free, ?_⟩
      · intro c
        obtain ⟨events, hnote⟩ := nextLedger_aside t.ctrl s' t.ledger hctrl hpile c
        dsimp only
        rw [hnote]
        exact ((t.ledger c).noteAll_kept c events).2.2.2 (h.answer c)
      · rw [hflag, hunlocked]
        exact h.locked

/-- The thread before it has taken any command. -/
structure AtRest (s : Energycon) : Prop where
  free : s.mask.Free
  flags : ∀ c, s.flag c = false
  acks : s.world.acks = []
  forwarded : s.world.forwarded = []

/-- The ledger before any command. -/
def emptyLedger (_ : ChargeCmd) : Account := ⟨[], 0, 0, none⟩

/-- Over every run of the thread: its calls return, every command it takes is acknowledged exactly once with its outcome, a command
that fails or is refused is not forwarded and leaves its flag clear, exactly when every command is allowed when it is taken and
every answer of the pile is the one awaited when it is found. -/
theorem acknowledged_once_iff (s : Energycon) (hs : AtRest s) (ops : List EnergyOp) :
    Meets Ledgered.step AckAllowed ⟨s, emptyLedger⟩ ops ↔ Meets Ledgered.step Lawful ⟨s, emptyLedger⟩ ops := by
  have hinv : LedgerInv ⟨s, emptyLedger⟩ := by
    refine ⟨?_, fun _ _ => rfl, hs.free, ?_⟩
    · intro c
      refine ⟨?_, ?_, hs.flags c⟩
      · rw [Energycon.acksOf, hs.acks]
        rfl
      · rw [Energycon.forwardedOf, hs.forwarded]
        rfl
    · intro hflag
      rw [hs.flags] at hflag
      cases hflag
  refine meets_congr ?_ (fun t op t' h hlawful hstep => h.step hlawful hstep) hinv ops
  intro t op h
  by_cases hctrl : op = .ctrlData
  · subst hctrl
    exact h.ctrlData_iff
  · by_cases hpile : op = .pileData
    · subst hpile
      exact h.pileData_iff
    · refine ⟨fun _ => h.aside hctrl hpile, fun _ => ?_⟩
      cases op
      case ctrlData => exact absurd rfl hctrl
      case pileData => exact absurd rfl hpile
      all_goals exact trivial

/-- A start and a stop without a fault, each answered before the next one. -/
theorem acknowledged_once_session :
    Meets Ledgered.step Lawful ⟨powerUpEnergycon, emptyLedger⟩
      [.post .startChg, .pileData, .ctrlData, .receive (message 0x11 0 1 0), .pileData, .post .stopChg, .ctrlData,
        .pileEvent .chargeStopOK, .pileData, .post .askState, .ctrlData] :=
  (acknowledged_once_iff powerUpEnergycon ⟨⟨rfl, rfl⟩, by decide, rfl, rfl⟩ _).mp (by decide)

/-- A run whose last state has another list of acknowledgements than the ledger is not as asked. -/
theorem not_lawful_of_acks {ops : List EnergyOp} (made due : List Byte)
    (hrun : (run Ledgered.step ⟨powerUpEnergycon, emptyLedger⟩ ops).map
      (fun t => (Energycon.acksOf t.ctrl .start, (t.ledger .start).acks)) = some (made, due)) (hne : made ≠ due) :
    ¬ Meets Ledgered.step Lawful ⟨powerUpEnergycon, emptyLedger⟩ ops := by
  intro hmeets
  obtain ⟨t, ht, hacks⟩ := Option.map_eq_some_iff.mp hrun
  have hgood : ∀ c, (t.ledger c).Kept t.ctrl c :=
    (hmeets.imp fun _ _ hlawful => hlawful.2).good_of_run (fun c => ⟨rfl, rfl, by cases c <;> rfl⟩) ht
  rw [Prod.mk.injEq] at hacks
  exact hne (hacks.1.symm.trans ((hgood .start).acks.trans hacks.2))

/-- With a fault of the clock, whose bit is not the lowest, a start is forwarded to the pile and not acknowledged. With a fault of the
memory it is acknowledged as failed, its flag stays set, and a later success of the pile acknowledges it again. -/
theorem faulty_start_forwarded_or_acknowledged_twice :
    (run Ledgered.step ⟨powerUpEnergycon, emptyLedger⟩ [.fault 2, .post .startChg, .ctrlData]).map
        (fun t => (t.ctrl.world.acks, t.ctrl.world.forwarded)) = some ([], [.start]) ∧
    (run Ledgered.step ⟨powerUpEnergycon, emptyLedger⟩
        [.fault 1, .post .startChg, .ctrlData, .pileEvent .chargeStartOK, .pileData]).map
          (fun t => (t.ctrl.world.acks, t.ctrl.world.forwarded)) = some ([(.start, failed), (.start, successful)], []) ∧
    ¬ Meets Ledgered.step Lawful ⟨powerUpEnergycon, emptyLedger⟩ [.fault 2, .post .startChg, .ctrlData] ∧
    ¬ Meets Ledgered.step Lawful ⟨powerUpEnergycon, emptyLedger⟩
      [.fault 1, .post .startChg, .ctrlData, .pileEvent .chargeStartOK, .pileData] := by
  refine ⟨by decide, by decide +kernel, ?_, ?_⟩
  · exact not_lawful_of_acks [] [failed] (by decide +kernel) (by decide)
  · exact not_lawful_of_acks [failed, successful] [failed] (by decide) (by decide)

end EnergyRouter
