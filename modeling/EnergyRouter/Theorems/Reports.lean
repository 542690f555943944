import EnergyRouter.Lemmas.Control
import EnergyRouter.Lib.EventMask
import EnergyRouter.Lib.Runs

/-!
# Reports go out once

When every event posted by `CtrlUnit_RecResp` is sent exactly once by `check_afair_from_botom`. Only three of the nine blocks clear
their event; the other six send it again with every poll, or never.
-/

namespace EnergyRouter

open EventMask Runs

variable {cmd d : CommCmd} {posted cs : List CommCmd}

variable {W : Type}

/-! ## Bits -/

/-- The bit of a command in the mask. -/
def Hplc.bits (s : Hplc W) (cmd : CommCmd) : Bool := s.hplcEvent.getLsbD cmd.code

theorem pending_iff (s : Hplc W) (cmd : CommCmd) : s.Pending cmd ↔ s.bits cmd = true :=
  and_bit_ne_zero s.hplcEvent cmd.code

theorem CommCmd.code_injective {a b : CommCmd} (h : a.code = b.code) : a = b := by
  cases a <;> cases b <;> simp only [CommCmd.code] at h <;> first | rfl | omega | (congr; omega)

theorem bits_clear_self (s : Hplc W) (cmd : CommCmd) : (s.hplcEvent &&& ~~~cmd.event).getLsbD cmd.code = false :=
  getLsbD_and_not_bit_self s.hplcEvent cmd.code

theorem bits_clear_of_ne (s : Hplc W) (h : d ≠ cmd) :
    (s.hplcEvent &&& ~~~cmd.event).getLsbD d.code = s.bits d :=
  getLsbD_and_not_bit_of_ne s.hplcEvent fun hcode => h (CommCmd.code_injective hcode.symm)

theorem bits_post_of_ne (s : Hplc W) (h : d ≠ cmd) :
    (s.hplcEvent ||| cmd.event).getLsbD d.code = s.bits d :=
  getLsbD_or_bit_of_ne s.hplcEvent fun hcode => h (CommCmd.code_injective hcode.symm)

/-! ## One block -/

/-- The commands whose block clears its event. -/
def clearedCmds : List CommCmd := [.chgPlanIssueAck, .startChgAck, .stopChgAck]

theorem afairBlock_of_cleared (r : Reporters W) (h : cmd ∈ clearedCmds) :
    afairBlock r cmd = ackBlock r (r.actionResponsePackage cmd) cmd true := by
  simp only [clearedCmds, List.mem_cons, List.not_mem_nil, or_false] at h
  rcases h with rfl | rfl | rfl
  · rfl
  · rfl
  · rfl

theorem afairBlock_idle (r : Reporters W) (cmd : CommCmd) (result : Int) {s : Hplc W} (h : ¬ s.Pending cmd) :
    afairBlock r cmd (result, s) = (result, s) := by
  cases cmd <;> first | rfl | exact if_neg h

/-- A block of a pending event that clears it sends a frame exactly when the builder succeeds. -/
theorem afairBlock_cleared (r : Reporters W) (hcmd : cmd ∈ clearedCmds) (result : Int) {s : Hplc W} (h : s.Pending cmd) :
    (afairBlock r cmd (result, s)).2.hplcEvent = s.hplcEvent &&& ~~~cmd.event ∧
    (afairBlock r cmd (result, s)).2.sent =
      if (r.actionResponsePackage cmd s.world).1 = 0 then s.sent ++ [cmd] else s.sent := by
  rw [afairBlock_of_cleared r hcmd]
  unfold ackBlock
  simp only [if_pos h]
  by_cases hbuilt : (r.actionResponsePackage cmd s.world).1 = 0
  · simp [hbuilt, transmit]
  · simp [hbuilt]

/-- What the other blocks may do: leave the mask alone and send at most one frame, of their own event. -/
def Resends (cmd : CommCmd) (st st' : Int × Hplc W) : Prop :=
  st'.2.hplcEvent = st.2.hplcEvent ∧ (st'.2.sent = st.2.sent ∨ st'.2.sent = st.2.sent ++ [cmd])

theorem Resends.idle {st st' : Int × Hplc W} (hevent : st'.2.hplcEvent = st.2.hplcEvent) (hsent : st'.2.sent = st.2.sent) :
    Resends cmd st st' :=
  ⟨hevent, .inl hsent⟩

theorem Resends.again {st st' : Int × Hplc W} (hevent : st'.2.hplcEvent = st.2.hplcEvent)
    (hsent : st'.2.sent = st.2.sent ++ [cmd]) : Resends cmd st st' :=
  ⟨hevent, .inr hsent⟩

theorem Resends.ite {c : Prop} [Decidable c] {st a b : Int × Hplc W} (ha : Resends cmd st a) (hb : Resends cmd st b) :
    Resends cmd st (if c then a else b) := by
  split_ifs
  · exact ha
  · exact hb

theorem ackBlock_resends (r : Reporters W) (build : W → Int × W) (cmd : CommCmd) (st : Int × Hplc W) :
    Resends cmd st (ackBlock r build cmd false st) :=
  .ite (.ite (.idle rfl rfl) (.again rfl rfl)) (.idle rfl rfl)

theorem exeStateBlock_resends (r : Reporters W) (st : Int × Hplc W) : Resends .chgPlanExeState st (exeStateBlock r st) :=
  .ite (.ite (.idle rfl rfl) (.again rfl rfl)) (.idle rfl rfl)

theorem notifyBlock_resends (r : Reporters W) (cmd : CommCmd) (st : Int × Hplc W) : Resends cmd st (notifyBlock r cmd st) :=
  .ite (.ite (.idle rfl rfl) (.again rfl rfl)) (.idle rfl rfl)

theorem pileFaultBlock_resends (r : Reporters W) (st : Int × Hplc W) : Resends .pileFault st (pileFaultBlock r st) :=
  .ite (.ite (.idle rfl rfl) (.again rfl rfl)) (.idle rfl rfl)

theorem afairBlock_resends (r : Reporters W) (hcmd : cmd ∉ clearedCmds) (st : Int × Hplc W) :
    Resends cmd st (afairBlock r cmd st) := by
  cases cmd with
  | chgPlanIssueAck => exact absurd (by decide) hcmd
  | startChgAck => exact absurd (by decide) hcmd
  | stopChgAck => exact absurd (by decide) hcmd
  | chgPlanAdjustAck => exact ackBlock_resends r _ _ st
  | chgPlanIssueGetAck => exact ackBlock_resends r _ _ st
  | chgPlanExeState => exact exeStateBlock_resends r st
  | chgRecord => exact notifyBlock_resends r _ st
  | deviceFault => exact notifyBlock_resends r _ st
  | pileFault => exact pileFaultBlock_resends r st
  | _ => exact ⟨rfl, .inl rfl⟩

/-- A block touches neither the bit nor the frames of any other event. -/
theorem afairBlock_frame (r : Reporters W) (hd : d ≠ cmd) (st : Int × Hplc W) :
    (afairBlock r cmd st).2.bits d = st.2.bits d ∧ (afairBlock r cmd st).2.sent.count d = st.2.sent.count d := by
  obtain ⟨result, s⟩ := st
  have hcount : (s.sent ++ [cmd]).count d = s.sent.count d := by
    rw [List.count_append, List.count_singleton, if_neg (by simpa using Ne.symm hd), Nat.add_zero]
  by_cases hcmd : cmd ∈ clearedCmds
  · by_cases hpending : s.Pending cmd
    · obtain ⟨hevent, hsent⟩ := afairBlock_cleared r hcmd result hpending
      rw [Hplc.bits, hevent, hsent]
      refine ⟨bits_clear_of_ne s hd, ?_⟩
      split_ifs
      · exact hcount
      · rfl
    · rw [afairBlock_idle r cmd result hpending]
      exact ⟨rfl, rfl⟩
  · obtain ⟨hevent, hsent | hsent⟩ := afairBlock_resends r hcmd (result, s)
    · rw [Hplc.bits, hevent, hsent]
      exact ⟨rfl, rfl⟩
    · rw [Hplc.bits, hevent, hsent]
      exact ⟨rfl, hcount⟩

/-- The event of a block is not pending, or it is one the block clears and its builder succeeds. -/
def Answers (r : Reporters W) (s : Hplc W) (cmd : CommCmd) : Prop :=
  s.Pending cmd → cmd ∈ clearedCmds ∧ (r.actionResponsePackage cmd s.world).1 = 0
deriving Decidable

/-- Every event posted was sent, except for one of each kind that is still pending. -/
def Accounted (posted : List CommCmd) (s : Hplc W) : Prop := Balanced posted s.sent s.bits

/-- A block keeps the account and clears its event exactly when it answers. -/
theorem afairBlock_accounted (r : Reporters W) (result : Int) {s : Hplc W} (h : Accounted posted s) :
    Answers r s cmd ↔
      Accounted posted (afairBlock r cmd (result, s)).2 ∧ (afairBlock r cmd (result, s)).2.bits cmd = false := by
  by_cases hpending : s.Pending cmd
  · have hbit := (pending_iff s cmd).mp hpending
    by_cases hcmd : cmd ∈ clearedCmds
    · obtain ⟨hevent, hsent⟩ := afairBlock_cleared r hcmd result hpending
      have hself : (afairBlock r cmd (result, s)).2.bits cmd = false := by
        rw [Hplc.bits, hevent]
        exact bits_clear_self s cmd
      have hother : ∀ d, d ≠ cmd → (afairBlock r cmd (result, s)).2.bits d = s.bits d :=
        fun d hd => (afairBlock_frame r hd (result, s)).1
      constructor
      · intro hanswers
        rw [if_pos (hanswers hpending).2] at hsent
        refine ⟨?_, hself⟩
        rw [Accounted, hsent]
        exact Balanced.serve h hbit hself hother
      · rintro ⟨hacc, -⟩ -
        refine ⟨hcmd, ?_⟩
        by_contra hfailed
        rw [if_neg hfailed] at hsent
        rw [Accounted, hsent] at hacc
        have hnot := Balanced.of_dropped h hacc hself
        rw [hbit] at hnot
        cases hnot
    · obtain ⟨hevent, -⟩ := afairBlock_resends r hcmd (result, s)
      constructor
      · exact fun hanswers => absurd (hanswers hpending).1 hcmd
      · rintro ⟨-, hclear⟩
        rw [Hplc.bits, hevent] at hclear
        exact absurd (hbit.symm.trans hclear) (by decide)
  · rw [afairBlock_idle r cmd result hpending]
    constructor
    · exact fun _ => ⟨h, by rw [pending_iff] at hpending; simpa using hpending⟩
    · exact fun _ hp => absurd hp hpending

/-! ## One poll -/

/-- Blocks of other events touch neither the bit nor the frames of an event. -/
theorem foldl_afairBlock_frame (r : Reporters W) (hd : d ∉ cs) (st : Int × Hplc W) :
    (cs.foldl (fun st cmd => afairBlock r cmd st) st).2.bits d = st.2.bits d ∧
    (cs.foldl (fun st cmd => afairBlock r cmd st) st).2.sent.count d = st.2.sent.count d := by
  induction cs generalizing st with
  | nil => exact ⟨rfl, rfl⟩
  | cons c cs ih =>
    rw [List.mem_cons, not_or] at hd
    obtain ⟨hbits, hcount⟩ := ih hd.2 (afairBlock r c st)
    obtain ⟨hbits', hcount'⟩ := afairBlock_frame r hd.1 st
    exact ⟨hbits.trans hbits', hcount.trans hcount'⟩

/-- Every one of the blocks, in the state it is reached in, answers. -/
def BlocksAnswer (r : Reporters W) (st : Int × Hplc W) (cs : List CommCmd) : Prop :=
  Meets (fun st cmd => some (afairBlock r cmd st)) (fun st cmd => Answers r st.2 cmd) st cs
deriving Decidable

/-- The blocks keep the account and clear all their events exactly when every one of them answers. -/
theorem blocksAnswer_iff (r : Reporters W) (hcs : cs.Nodup) (st : Int × Hplc W) (h : Accounted posted st.2) :
    BlocksAnswer r st cs ↔
      Accounted posted (cs.foldl (fun st cmd => afairBlock r cmd st) st).2 ∧
      ∀ cmd ∈ cs, (cs.foldl (fun st cmd => afairBlock r cmd st) st).2.bits cmd = false := by
  induction cs generalizing st with
  | nil => exact ⟨fun _ => ⟨h, fun _ hmem => absurd hmem List.not_mem_nil⟩, fun _ => trivial⟩
  | cons c cs ih =>
    rw [List.nodup_cons] at hcs
    obtain ⟨hbits, hcount⟩ := foldl_afairBlock_frame r hcs.1 (afairBlock r c st)
    rw [List.foldl_cons, List.forall_mem_cons]
    constructor
    · rintro ⟨hanswers, hrest⟩
      obtain ⟨hacc, hclear⟩ := (afairBlock_accounted r st.1 h).mp hanswers
      obtain ⟨hacc', hclear'⟩ := (ih hcs.2 _ hacc).mp (hrest _ rfl)
      exact ⟨hacc', hbits.trans hclear, hclear'⟩
    · rintro ⟨hacc, hclear, hclear'⟩
      -- what later blocks leave of this event is what this block left
      have hacc' : Accounted posted (afairBlock r c st).2 := by
        intro d
        by_cases hd : d = c
        · subst hd
          rw [← hcount, ← hbits]
          exact hacc d
        · obtain ⟨hbits', hcount'⟩ := afairBlock_frame r hd st
          rw [hbits', hcount']
          exact h d
      refine ⟨(afairBlock_accounted r st.1 h).mpr ⟨hacc', hbits.symm.trans hclear⟩, ?_⟩
      intro st' hst'
      cases hst'
      exact (ih hcs.2 _ hacc').mpr ⟨hacc, hclear'⟩

/-! ## Runs of posts and polls -/

/-- The port with the events posted so far. -/
structure Reporting (W : Type) where
  hplc : Hplc W
  posted : List CommCmd

/-- What the two threads do with the port. -/
inductive ReportOp
  | post (cmd : CommCmd)
  | poll
  deriving DecidableEq, Repr

/-- The command is one `CtrlUnit_RecResp` posts. -/
def CommCmd.posts (cmd : CommCmd) : Bool := (recCase cmd).any Prod.snd

/-- A call of `CtrlUnit_RecResp` or of `check_afair_from_botom`. -/
def Reporting.step (copy : CommCmd → W → W) (r : Reporters W) (t : Reporting W) : ReportOp → Option (Reporting W)
  | .post cmd =>
    (ctrlUnitRecResp copy cmd t.hplc).map fun (_, s) => ⟨s, if cmd.posts then t.posted ++ [cmd] else t.posted⟩
  | .poll => (checkAfairFromBotom r t.hplc).map fun (_, s) => ⟨s, t.posted⟩

/-- Every event posted was sent once, except for those still pending, and after a poll nothing is. A poll without a new event then
sends nothing. -/
def ExactlyOnce (op : ReportOp) (t : Reporting W) : Prop :=
  Accounted t.posted t.hplc ∧ (op = .poll → ∀ cmd, t.hplc.bits cmd = false)

/-- The flags are clear; an event is posted only when it is not pending; and at a poll every block answers. -/
def ReportAllowed (r : Reporters W) (t : Reporting W) : ReportOp → Prop
  | .post cmd => t.hplc.Unlocked ∧ (cmd.posts → ¬ t.hplc.Pending cmd)
  | .poll => t.hplc.Unlocked ∧ BlocksAnswer r (-1, { t.hplc with lock1 := true, lock2 := true }) blockOrder

instance (r : Reporters W) (t : Reporting W) : ∀ op, Decidable (ReportAllowed r t op)
  | .post _ => inferInstanceAs (Decidable (_ ∧ _))
  | .poll => inferInstanceAs (Decidable (_ ∧ _))

/-- Only events that have a block are ever pending. -/
structure ReportInv (t : Reporting W) : Prop where
  accounted : Accounted t.posted t.hplc
  blocked : ∀ cmd, cmd ∉ blockOrder → t.hplc.bits cmd = false

theorem mem_blockOrder_of_posts (h : cmd.posts = true) : cmd ∈ blockOrder := by
  cases cmd <;> first | decide | exact absurd h (by simp [CommCmd.posts, recCase])

theorem code_lt_of_mem_blockOrder : ∀ {cmd : CommCmd}, cmd ∈ blockOrder → cmd.code < 32 := by
  decide

section

variable (copy : CommCmd → W → W) (r : Reporters W)

theorem Reporting.post_outcome (t : Reporting W) (cmd : CommCmd) :
    Outcome (t.step copy r (.post cmd)) t.hplc.Unlocked fun t' =>
      t'.hplc.sent = t.hplc.sent ∧ t'.posted = (if cmd.posts then t.posted ++ [cmd] else t.posted) ∧
        t'.hplc.hplcEvent = (if cmd.posts then t.hplc.hplcEvent ||| cmd.event else t.hplc.hplcEvent) := by
  constructor
  · intro hs
    cases hcase : recCase cmd with
    | none =>
      have hposts : cmd.posts = false := by rw [CommCmd.posts, hcase]; rfl
      rw [Reporting.step, ctrlUnitRecResp_default copy hs hcase, hposts]
      exact ⟨_, rfl, rfl, rfl, rfl⟩
    | some case =>
      have hposts : cmd.posts = case.2 := by rw [CommCmd.posts, hcase]; rfl
      rw [Reporting.step, ctrlUnitRecResp_of_case copy hs hcase, hposts]
      exact ⟨_, rfl, rfl, rfl, rfl⟩
  · intro hs
    rw [Reporting.step, ctrlUnitRecResp_locked copy hs, Option.map_none]

/-- So does a poll, and it leaves what the blocks leave. -/
theorem Reporting.poll_outcome (t : Reporting W) :
    Outcome (t.step copy r .poll) t.hplc.Unlocked fun t' =>
      t' = ⟨{ (afairBlocks r { t.hplc with lock1 := true, lock2 := true }).2 with lock1 := false, lock2 := false }, t.posted⟩ := by
  constructor
  · intro hs
    simp only [Reporting.step, checkAfairFromBotom, if_pos hs, Option.map_some]
    exact ⟨_, rfl, rfl⟩
  · intro hs
    simp only [Reporting.step, checkAfairFromBotom, if_neg hs, Option.map_none]

theorem bits_of_event_eq {s s' : Hplc W} (h : s'.hplcEvent = s.hplcEvent) : s'.bits = s.bits := by
  funext cmd
  rw [Hplc.bits, Hplc.bits, h]

theorem ReportInv.post_iff {t : Reporting W} (h : ReportInv t) (cmd : CommCmd) :
    ReportAllowed r t (.post cmd) ↔ ∃ t', t.step copy r (.post cmd) = some t' ∧ ExactlyOnce (.post cmd) t' := by
  refine (t.post_outcome copy r cmd).and_iff ?_
  rintro t' ⟨hsent, hposted, hevent⟩
  have hiff : (cmd.posts → ¬ t.hplc.Pending cmd) ↔ Accounted t'.posted t'.hplc := by
    by_cases hposts : cmd.posts = true
    · rw [if_pos hposts] at hposted hevent
      have hself : t'.hplc.bits cmd = true := by
        rw [Hplc.bits, hevent]
        exact getLsbD_or_bit_self _ (code_lt_of_mem_blockOrder (mem_blockOrder_of_posts hposts))
      have hother : ∀ d, d ≠ cmd → t'.hplc.bits d = t.hplc.bits d := by
        intro d hd
        rw [Hplc.bits, hevent]
        exact bits_post_of_ne t.hplc hd
      rw [Accounted, hposted, hsent, balanced_post_iff h.accounted hself hother, pending_iff]
      simp [hposts]
    · rw [if_neg hposts] at hposted hevent
      rw [Accounted, hposted, hsent, bits_of_event_eq hevent]
      exact ⟨fun _ => h.accounted, fun _ hp => absurd hp hposts⟩
  constructor
  · intro hallowed
    exact ⟨hiff.mp hallowed, nofun⟩
  · rintro ⟨hacc, -⟩
    exact hiff.mpr hacc

theorem ReportInv.poll_iff {t : Reporting W} (h : ReportInv t) :
    ReportAllowed r t .poll ↔ ∃ t', t.step copy r .poll = some t' ∧ ExactlyOnce .poll t' := by
  have hblocks := blocksAnswer_iff r (by decide : blockOrder.Nodup) (-1, { t.hplc with lock1 := true, lock2 := true })
    h.accounted
  refine (t.poll_outcome copy r).and_iff ?_
  rintro t' rfl
  constructor
  · intro hanswer
    obtain ⟨hacc, hclear⟩ := hblocks.mp hanswer
    refine ⟨hacc, ?_⟩
    intro _ cmd
    by_cases hcmd : cmd ∈ blockOrder
    · exact hclear cmd hcmd
    · exact (foldl_afairBlock_frame r hcmd _).1.trans (h.blocked cmd hcmd)
  · rintro ⟨hacc, hclear⟩
    exact hblocks.mpr ⟨hacc, fun cmd _ => hclear rfl cmd⟩

theorem ReportInv.step {t t' : Reporting W} {op : ReportOp} (h : ReportInv t) (hstep : t.step copy r op = some t')
    (hgood : ExactlyOnce op t') : ReportInv t' := by
  refine ⟨hgood.1, ?_⟩
  intro cmd hcmd
  cases op with
  | poll => exact hgood.2 rfl cmd
  | post c =>
    obtain ⟨-, -, hevent⟩ := (t.post_outcome copy r c).post_of_some hstep
    rw [Hplc.bits, hevent]
    split_ifs with hposts
    · have hne : cmd ≠ c := fun heq => hcmd (heq ▸ mem_blockOrder_of_posts hposts)
      rw [bits_post_of_ne t.hplc hne]
      exact h.blocked cmd hcmd
    · exact h.blocked cmd hcmd

/-- Over every run of posts and polls from a port with nothing pending: every call returns, every event posted is sent exactly once
and nothing is pending after a poll, exactly when every step of the run is allowed in the state it is taken in. -/
theorem reports_exactly_once_iff {s : Hplc W} (hevent : s.hplcEvent = 0) (hsent : s.sent = []) (ops : List ReportOp) :
    Meets (Reporting.step copy r) (ReportAllowed r) ⟨s, []⟩ ops ↔
      Keeps (Reporting.step copy r) ExactlyOnce ⟨s, []⟩ ops := by
  have hbits : ∀ cmd, s.bits cmd = false := by
    intro cmd
    rw [Hplc.bits, hevent]
    exact BitVec.getLsbD_zero
  have hinv : ReportInv (⟨s, []⟩ : Reporting W) := by
    refine ⟨?_, fun cmd _ => hbits cmd⟩
    intro cmd
    rw [hsent, hbits cmd]
    rfl
  refine meets_iff_keeps ?_ (fun t op t' ht hstep hgood => ht.step copy r hstep hgood) hinv ops
  intro t op ht
  cases op with
  | post cmd => exact ht.post_iff copy r cmd
  | poll => exact ht.poll_iff copy r

end

/-- Builders that always succeed. -/
def readyReporters : Reporters Unit where
  actionResponsePackage _ w := (0, w)
  getResponsePackage w := (0, w)
  securityGetPackage w := (0, w)
  reportCmdChgPlanExeState w := (0, w)
  reportNotificationPackage _ w := w
  hplcTxFrame w := w

/-- The answers to a start and to a stop go out once, and the third poll sends nothing. -/
theorem reports_exactly_once_start_stop :
    Keeps (Reporting.step (fun _ w => w) readyReporters) ExactlyOnce ⟨idleHplc, []⟩
      [.post .startChgAck, .poll, .post .stopChgAck, .post .chgPlanIssueAck, .poll, .poll] :=
  (reports_exactly_once_iff (fun _ w => w) readyReporters rfl rfl _).mp (by decide)

/-- The answer to a plan's adjustment, posted once, goes out with each of two polls and is still pending. -/
theorem adjustAck_sent_twice :
    (((Reporting.step (fun _ w => w) readyReporters ⟨idleHplc, []⟩ (.post .chgPlanAdjustAck)).bind fun t =>
      t.step (fun _ w => w) readyReporters .poll).bind fun t => t.step (fun _ w => w) readyReporters .poll).map
        (fun t => (t.posted, t.hplc.sent, t.hplc.bits .chgPlanAdjustAck)) =
      some ([.chgPlanAdjustAck], [.chgPlanAdjustAck, .chgPlanAdjustAck], true) ∧
    ¬ Keeps (Reporting.step (fun _ w => w) readyReporters) ExactlyOnce ⟨idleHplc, []⟩
      [.post .chgPlanAdjustAck, .poll, .poll] := by
  constructor
  · decide
  · rintro ⟨t₁, h₁, -, t₂, h₂, ⟨-, hclear⟩, -⟩
    cases h₁
    cases h₂
    exact absurd (hclear rfl .chgPlanAdjustAck) (by decide)

end EnergyRouter
