import Mathlib.Data.List.Chain
import EnergyRouter.BleThread

/-!
# The setting up of the Bluetooth module

Four results about whole runs of the thread. It is in transparent mode only when `AT+BLESPP` was the last command it sent. A module
that does not answer is switched off for four turns and set up anew. A module that answers is sent the commands in their order, each
until its answer has come. A module that was disconnected is reset, and not set up again.
-/

namespace EnergyRouter

variable {t : BleThread} {c c' : BleAtCmd} {heard : Option Heard} {h : Heard} {k : Nat} {p : Bool} {sent : List String}

/-! ## What every run keeps -/

/-- What holds of the thread between two turns. In transparent mode no command is pending; a pending command was sent last, or is the
first one. -/
structure BleThread.Inv (t : BleThread) : Prop where
  trans : t.atMode = false → t.atCmd = .null ∧ t.atCmdOld = .spp
  pending : t.atCmd ≠ .null → t.atCmdOld = t.atCmd ∨ t = bluetoothFresh t.sent
  last : t.atCmdOld ≠ .null → t.sent.getLast? = some t.atCmdOld.text
  count : t.atCmdCount ≤ 10
  pwrOn : 6 < t.atCmdCount → t.pwrOn = false

/-- A command is sent for the first time. -/
theorem bleATCmdSend_first {old : BleAtCmd} (hc : c ≠ .null) (hne : old ≠ c) :
    bleATCmdSend ⟨true, c, old, k, p, sent⟩ = ⟨true, c, c, 0, p, sent ++ [c.text]⟩ := by
  rw [bleATCmdSend, if_neg hc, bleATCmdTimeOut, if_neg hne]

/-- A command is sent again. -/
theorem bleATCmdSend_again (hc : c ≠ .null) (hk : k < 10) :
    bleATCmdSend ⟨true, c, c, k, p, sent⟩ = ⟨true, c, c, k + 1, p && decide (k < 6), sent ++ [c.text]⟩ := by
  rw [bleATCmdSend, if_neg hc, bleATCmdTimeOut, if_pos rfl, if_neg (show ¬ 10 < k + 1 by omega)]
  by_cases hoff : k < 6
  · rw [if_neg (show ¬ 6 < k + 1 by omega), decide_eq_true hoff, Bool.and_true]
  · rw [if_pos (show 6 < k + 1 by omega), decide_eq_false hoff, Bool.and_false]

/-- A command was sent often enough. -/
theorem bleATCmdSend_over (hc : c ≠ .null) : bleATCmdSend ⟨true, c, c, 10, p, sent⟩ = bluetoothFresh (sent ++ [c.text]) := by
  rw [bleATCmdSend, if_neg hc, bleATCmdTimeOut, if_pos rfl]
  rfl

/-- Sending leaves what holds between two turns. -/
theorem bleATCmdSend_inv (hmode : t.atMode = true) (hc : t.atCmd ≠ .null) (hcount : t.atCmdCount ≤ 10) : (bleATCmdSend t).Inv := by
  obtain ⟨mode, c, old, k, p, sent⟩ := t
  cases hmode
  have hzero {q : Prop} (h : 6 < 0) : q := absurd h (Nat.not_lt_zero _)
  by_cases hold : old = c
  · subst hold
    rcases Nat.lt_or_eq_of_le hcount with hlt | rfl
    · rw [bleATCmdSend_again hc hlt]
      refine ⟨fun h => Bool.noConfusion h, fun _ => .inl rfl, fun _ => List.getLast?_concat, hlt, ?_⟩
      intro (hoff : 6 < k + 1)
      show (p && decide (k < 6)) = false
      rw [decide_eq_false (by omega), Bool.and_false]
    · rw [bleATCmdSend_over hc]
      exact ⟨fun h => Bool.noConfusion h, fun _ => .inr rfl, fun hne => absurd rfl hne, Nat.zero_le _, hzero⟩
  · rw [bleATCmdSend_first hc hold]
    exact ⟨fun h => Bool.noConfusion h, fun _ => .inl rfl, fun _ => List.getLast?_concat, Nat.zero_le _, hzero⟩

/-- What is processed before the command is sent: it changes the command and the mode only, and the transparent mode is entered with
the answer to `AT+BLESPP` only. -/
theorem BleThread.Inv.process (hinv : t.Inv) (heard : Option Heard) :
    ∃ atMode atCmd, bleRecvDataProcess t heard = { t with atMode := atMode, atCmd := atCmd } ∧
      (atMode = false → atCmd = .null ∧ t.atCmdOld = .spp) := by
  cases heard with
  | none => exact ⟨_, _, rfl, hinv.trans⟩
  | some h =>
    rw [bleRecvDataProcess]
    split_ifs with hmode
    · unfold bleATCmdHear
      split_ifs with hnull hok hcfg hspp
      · exact ⟨true, _, by rw [hmode], fun h => Bool.noConfusion h⟩
      · exact ⟨true, _, by rw [hmode], fun h => Bool.noConfusion h⟩
      · refine ⟨_, _, rfl, fun _ => ⟨rfl, ?_⟩⟩
        rcases hinv.pending hnull with hold | hfresh
        · exact hold.trans hspp
        · rw [hfresh] at hspp
          cases hspp
      · exact ⟨true, _, by rw [hmode], fun h => Bool.noConfusion h⟩
      · exact ⟨_, _, rfl, hinv.trans⟩
    · unfold bleTransHear
      split_ifs with hdisconn
      · exact ⟨_, _, rfl, fun h => Bool.noConfusion h⟩
      · exact ⟨_, _, rfl, hinv.trans⟩

/-- The step lemma. -/
theorem BleThread.Inv.turn (hinv : t.Inv) (heard : Option Heard) : (bluetoothTurn t heard).Inv := by
  obtain ⟨atMode, atCmd, hprocess, htrans⟩ := hinv.process heard
  rw [bluetoothTurn, hprocess]
  by_cases hnull : atCmd = .null
  · rw [bleATCmdSend, if_pos hnull, ite_self]
    exact ⟨fun h => ⟨hnull, (htrans h).2⟩, fun hne => absurd hnull hne, hinv.last, hinv.count, hinv.pwrOn⟩
  · have hmode : atMode = true := by
      by_contra hfalse
      exact hnull (htrans (Bool.not_eq_true _ ▸ hfalse)).1
    rw [if_pos hmode]
    exact bleATCmdSend_inv hmode hnull hinv.count

theorem bluetoothFresh_inv (sent : List String) : (bluetoothFresh sent).Inv :=
  ⟨fun h => Bool.noConfusion h, fun _ => .inr rfl, fun hne => absurd rfl hne, Nat.zero_le _, fun h => absurd h (Nat.not_lt_zero _)⟩

/-- The run lemma. -/
theorem BleThread.Reached.inv (ht : t.Reached) : t.Inv := by
  obtain ⟨heard, rfl⟩ := ht
  exact List.foldlRecOn heard bluetoothTurn (bluetoothFresh_inv []) fun t ht i _ => ht.turn i

/-- In every run, the thread is in transparent mode only when the last command it sent was `AT+BLESPP`, and no command is pending. -/
theorem transparent_after_spp (t : BleThread) (ht : t.Reached) (htrans : t.atMode = false) :
    t.sent.getLast? = some "AT+BLESPP\r\n" ∧ t.atCmd = .null := by
  obtain ⟨hnull, hold⟩ := ht.inv.trans htrans
  have hlast := ht.inv.last (by rw [hold]; decide)
  rw [hold] at hlast
  exact ⟨hlast, hnull⟩

/-- A run in which everything is answered at once, up to a connection. -/
def connectedRun : List (Option Heard) :=
  List.replicate 11 (some ⟨true, false, false, false⟩) ++ [some ⟨false, true, false, false⟩, some ⟨true, false, false, false⟩]

theorem transparent_after_spp_connected :
    (connectedRun.foldl bluetoothTurn (bluetoothFresh [])).sent.getLast? = some "AT+BLESPP\r\n" :=
  (transparent_after_spp _ ⟨connectedRun, rfl⟩ (by decide)).1

/-! ## A module that does not answer -/

/-- There is no answer in what came in. -/
def NoAnswer (heard : Option Heard) : Prop := ∀ h, heard = some h → h.ok = false

/-- Without an answer a turn only sends. -/
theorem NoAnswer.turn (h : NoAnswer heard) (hmode : t.atMode = true) (hc : t.atCmd ≠ .null) :
    bluetoothTurn t heard = bleATCmdSend t := by
  have hsame : bleRecvDataProcess t heard = t := by
    cases heard with
    | none => rfl
    | some h' => rw [bleRecvDataProcess, if_pos hmode, bleATCmdHear, if_neg hc, h h' rfl, if_neg Bool.false_ne_true]
  rw [bluetoothTurn, hsame, if_pos hmode]

/-- Turns without an answer count. With the seventh time that the command is sent again the module loses its power. -/
theorem unanswered_turns {heards : List (Option Heard)} (hun : ∀ i ∈ heards, NoAnswer i) (hc : c ≠ .null)
    (hp : 6 < k → p = false) (hlen : k + heards.length ≤ 10) :
    heards.foldl bluetoothTurn ⟨true, c, c, k, p, sent⟩ =
      ⟨true, c, c, k + heards.length, p && decide (k + heards.length ≤ 6), sent ++ List.replicate heards.length c.text⟩ := by
  induction heards generalizing k p sent with
  | nil =>
    by_cases hon : k ≤ 6
    · simp [hon]
    · simp [hp (by omega)]
  | cons i heards ih =>
    rw [List.length_cons] at hlen
    obtain ⟨hi, hun⟩ := List.forall_mem_cons.mp hun
    have hp' : 6 < k + 1 → (p && decide (k < 6)) = false := fun h => by rw [decide_eq_false (by omega), Bool.and_false]
    rw [List.foldl_cons, hi.turn rfl hc, bleATCmdSend_again hc (by omega), ih hun hp' (by omega), List.length_cons,
      List.replicate_succ, Bool.and_assoc, ← Bool.decide_and, List.append_assoc, List.singleton_append, show
      k + (heards.length + 1) = k + 1 + heards.length by omega]
    exact congrArg (BleThread.mk true c c _ · _) (congrArg _ (decide_eq_decide.mpr (by omega)))

theorem unanswered_over {heards : List (Option Heard)} (hun : ∀ i ∈ heards, NoAnswer i) (hc : c ≠ .null)
    (hp : 6 < k → p = false) (hk : k ≤ 10) (hlen : heards.length = 11 - k) :
    heards.foldl bluetoothTurn ⟨true, c, c, k, p, sent⟩ = bluetoothFresh (sent ++ List.replicate heards.length c.text) := by
  rcases List.eq_nil_or_concat heards with rfl | ⟨heards, i, rfl⟩
  · rw [List.length_nil] at hlen
    omega
  · rw [List.concat_eq_append, List.length_append, List.length_singleton] at hlen
    rw [List.concat_eq_append, List.forall_mem_append] at hun
    rw [List.concat_eq_append, List.foldl_append, unanswered_turns hun.1 hc hp (by omega), List.foldl_cons, List.foldl_nil,
      (hun.2 i (List.mem_singleton_self i)).turn rfl hc, show k + heards.length = 10 by omega, bleATCmdSend_over hc,
      List.length_append, List.length_singleton, List.replicate_succ', List.append_assoc]

/-- In every run: a command that gets no answer is sent again, `n` times at most. In the last four of these turns the module has no
power, then it has power again and the setting up starts anew. -/
theorem silent_module_restarted (t : BleThread) (ht : t.Reached) (hmode : t.atMode = true) (hc : t.atCmd ≠ .null) :
    ∃ n, 0 < n ∧ n ≤ 12 ∧ ∀ silence : List (Option Heard), (∀ i ∈ silence, NoAnswer i) →
      (silence.length < n → (silence.foldl bluetoothTurn t).sent = t.sent ++ List.replicate silence.length t.atCmd.text ∧
        (silence.foldl bluetoothTurn t).pwrOn = (t.pwrOn && decide (silence.length + 4 < n))) ∧
      (silence.length = n → silence.foldl bluetoothTurn t = bluetoothFresh (t.sent ++ List.replicate n t.atCmd.text)) := by
  obtain ⟨-, hpending, -, hcount, hpwrOn⟩ := ht.inv
  obtain ⟨mode, c, old, k, p, sent⟩ := t
  cases hmode
  have hcount : k ≤ 10 := hcount
  -- a command that was sent `k + 1` times
  have hsent {k : Nat} {p : Bool} (sent : List String) (hcount : k ≤ 10) (hpwrOn : 6 < k → p = false) (silence : List (Option Heard))
      (hun : ∀ i ∈ silence, NoAnswer i) (hlt : silence.length < 11 - k) :
      (silence.foldl bluetoothTurn ⟨true, c, c, k, p, sent⟩).sent = sent ++ List.replicate silence.length c.text ∧
        (silence.foldl bluetoothTurn ⟨true, c, c, k, p, sent⟩).pwrOn = (p && decide (silence.length + 4 < 11 - k)) := by
    rw [unanswered_turns hun hc hpwrOn (by omega)]
    exact ⟨rfl, congrArg (p && ·) (decide_eq_decide.mpr (by omega))⟩
  rcases hpending hc with hold | hfresh
  · cases hold
    exact ⟨11 - k, by omega, by omega, fun silence hun =>
      ⟨hsent sent hcount hpwrOn silence hun, fun hlen => hlen ▸ unanswered_over hun hc hpwrOn hcount hlen⟩⟩
  · cases hfresh
    refine ⟨12, by decide, by decide, fun silence hun => ?_⟩
    cases silence with
    | nil => exact ⟨fun _ => ⟨(List.append_nil _).symm, rfl⟩, fun h => absurd h (by decide)⟩
    | cons i silence =>
      obtain ⟨hi, hun⟩ := List.forall_mem_cons.mp hun
      have hoff : 6 < 0 → true = false := fun h => absurd h (by decide)
      rw [List.foldl_cons, hi.turn rfl hc, bleATCmdSend_first hc (show BleAtCmd.null ≠ .ate by decide), List.length_cons]
      refine ⟨fun hlt => ?_, fun hlen => ?_⟩
      · obtain ⟨hs, hp⟩ := hsent (sent ++ [BleAtCmd.text .ate]) (Nat.zero_le _) hoff silence hun (by omega)
        rw [hs, hp, List.replicate_succ, List.append_assoc]
        exact ⟨rfl, congrArg (true && ·) (decide_eq_decide.mpr (by omega))⟩
      · rw [unanswered_over hun hc hoff (Nat.zero_le _) (by omega), ← hlen, List.replicate_succ, List.append_assoc]
        rfl

/-- From the start. -/
theorem silent_module_restarted_start : ∃ n, 0 < n ∧ n ≤ 12 ∧ ∀ silence : List (Option Heard), (∀ i ∈ silence, NoAnswer i) →
    silence.length = n → silence.foldl bluetoothTurn (bluetoothFresh []) = bluetoothFresh (List.replicate n "ATE0\r\n") := by
  obtain ⟨n, hpos, hle, h⟩ := silent_module_restarted (bluetoothFresh []) ⟨[], rfl⟩ rfl (by decide)
  exact ⟨n, hpos, hle, fun silence hno => (h silence hno).2⟩

/-! ## Answers -/

/-- What the thread makes of the answer to a command that has one and is not `AT+BLESPP`. -/
def BleAtCmd.answered (c : BleAtCmd) : Option BleAtCmd :=
  if c = .null ∨ c = .spp then none else if c = .sppCfg then some .null else some c.next

/-- Turns of which the last brings an answer, before the module loses its power. -/
structure AtAnswer where
  silence : List (Option Heard)
  heard : Heard
  unanswered : ∀ i ∈ silence, NoAnswer i
  few : silence.length ≤ 6
  ok : heard.ok = true

def AtAnswer.turns (a : AtAnswer) : List (Option Heard) := a.silence ++ [some a.heard]

theorem BleAtCmd.answered_ne (hc : c.answered = some c') : c ≠ .null ∧ c ≠ c' := by
  cases c <;> cases hc <;> decide

/-- With the answer to a command the next one is sent. -/
theorem bluetoothTurn_answered (hc : c.answered = some c') (hok : h.ok = true) :
    bluetoothTurn ⟨true, c, c, k, true, sent⟩ (some h) = bleATCmdSend ⟨true, c', c, k, true, sent⟩ := by
  have hhear : bleATCmdHear h ⟨true, c, c, k, true, sent⟩ = ⟨true, c', c, k, true, sent⟩ := by
    unfold BleAtCmd.answered at hc
    split_ifs at hc with hnone hcfg <;> cases hc
    · subst hcfg
      rw [bleATCmdHear, if_neg (show BleAtCmd.sppCfg ≠ .null by decide), if_pos hok, if_pos rfl]
    · obtain ⟨hnull, hspp⟩ := not_or.mp hnone
      rw [bleATCmdHear, if_neg hnull, if_pos hok, if_neg hcfg, if_neg hspp]
  rw [bluetoothTurn, bleRecvDataProcess, if_pos rfl, hhear, if_pos rfl]

theorem AtAnswer.foldl_turns (a : AtAnswer) (hc : c.answered = some c') :
    a.turns.foldl bluetoothTurn ⟨true, c, c, 0, true, sent ++ [c.text]⟩ =
      bleATCmdSend ⟨true, c', c, a.silence.length, true, sent ++ List.replicate (a.silence.length + 1) c.text⟩ := by
  have hfew := a.few
  rw [AtAnswer.turns, List.foldl_append, unanswered_turns a.unanswered (BleAtCmd.answered_ne hc).1 (fun h => absurd h (by decide))
    (by omega), Nat.zero_add, decide_eq_true hfew, List.foldl_cons, List.foldl_nil, List.append_assoc, List.replicate_succ]
  exact bluetoothTurn_answered hc a.ok

/-- What is sent when each of some commands gets its answer. -/
def sentFor (cmds : List BleAtCmd) (answers : List AtAnswer) : List String :=
  (cmds.zip answers).flatMap fun (c, a) => List.replicate (a.silence.length + 1) c.text

/-- The run lemma: commands of which each leads to the next are sent one after another, up to the waiting for a connection. -/
theorem foldl_answers (c : BleAtCmd) (cmds : List BleAtCmd) (sent : List String) (answers : List AtAnswer)
    (hcmds : List.IsChain (fun c c' => c.answered = some c') (c :: cmds ++ [.null])) (hlen : answers.length = cmds.length + 1) :
    ∃ old k, (answers.flatMap AtAnswer.turns).foldl bluetoothTurn ⟨true, c, c, 0, true, sent ++ [c.text]⟩ =
      ⟨true, .null, old, k, true, sent ++ sentFor (c :: cmds) answers⟩ := by
  induction cmds generalizing c sent answers with
  | nil =>
    obtain ⟨a, rfl⟩ := List.length_eq_one_iff.mp hlen
    rw [List.flatMap_singleton, a.foldl_turns hcmds.rel, bleATCmdSend, if_pos rfl]
    exact ⟨c, a.silence.length, by simp [sentFor]⟩
  | cons d cmds ih =>
    obtain ⟨a, answers, rfl⟩ := List.exists_cons_of_length_eq_add_one hlen
    have hd : d ≠ .null := by
      rintro rfl
      cases cmds <;> cases hcmds.tail.rel
    rw [List.flatMap_cons, List.foldl_append, a.foldl_turns hcmds.rel, bleATCmdSend_first hd (BleAtCmd.answered_ne hcmds.rel).2]
    obtain ⟨old, k, hrest⟩ := ih d (sent ++ List.replicate (a.silence.length + 1) c.text) answers hcmds.tail (Nat.succ.inj hlen)
    exact ⟨old, k, by rw [hrest]; simp [sentFor]⟩

/-- The commands that set up the module. -/
def setUpCmds : List BleAtCmd := [.ate, .init, .name, .addrSet, .gattsSrv, .gattsStart, .advParam, .advData, .advStart, .sppCfg]

/-- Whenever the module was switched on and then answers each command: the commands of the setting up are sent in their order, each
until its answer has come, and the thread then waits for a connection. -/
theorem module_set_up (sent : List String) (first : Option Heard) (hfirst : NoAnswer first) (answers : Vector AtAnswer 10) :
    ∃ old k, (first :: answers.toList.flatMap AtAnswer.turns).foldl bluetoothTurn (bluetoothFresh sent) =
      ⟨true, .null, old, k, true, sent ++ sentFor setUpCmds answers.toList⟩ := by
  have hne : BleAtCmd.ate ≠ .null := by decide
  obtain ⟨old, k, hrest⟩ := foldl_answers .ate setUpCmds.tail sent answers.toList (by decide) (Vector.length_toList ..)
  refine ⟨old, k, ?_⟩
  rw [List.foldl_cons, hfirst.turn rfl hne, bluetoothFresh, bleATCmdSend_first hne hne.symm]
  exact hrest

/-- An answer that comes at once. -/
def promptAnswer : AtAnswer := ⟨[], ⟨true, false, false, false⟩, List.forall_mem_nil _, by decide, rfl⟩

theorem module_set_up_promptly :
    ∃ old k, (none :: (Vector.replicate 10 promptAnswer).toList.flatMap AtAnswer.turns).foldl bluetoothTurn (bluetoothFresh []) =
      ⟨true, .null, old, k, true, sentFor setUpCmds (Vector.replicate 10 promptAnswer).toList⟩ :=
  module_set_up [] none (by simp [NoAnswer]) (Vector.replicate 10 promptAnswer)

/-! ## The end of a connection -/

/-- A thread that waits for a connection does nothing when none comes. -/
theorem foldl_quiet {t : BleThread} {heards : List (Option Heard)} (hnull : t.atCmd = .null)
    (hquiet : ∀ h, some h ∈ heards → h.call = .null) (hmode : t.atMode = true) : heards.foldl bluetoothTurn t = t := by
  refine List.foldlRecOn (motive := (· = t)) heards bluetoothTurn rfl ?_
  intro t' ht' i hi
  have hsame : bleRecvDataProcess t i = t := by
    cases i with
    | none => rfl
    | some h => rw [bleRecvDataProcess, if_pos hmode, bleATCmdHear, if_pos hnull, hquiet h hi, ← hnull]
  rw [ht', bluetoothTurn, hsame, bleATCmdSend, if_pos hnull, ite_self]

/-- In every run: when a connection has ended and the module answers, it is made to leave the transparent mode, to disconnect and to
start again. From then on, as long as no text of a connection comes in, nothing is sent to it: it is not set up again. -/
theorem disconnected_module_left (t : BleThread) (ht : t.Reached) (htrans : t.atMode = false) (hpwrOn : t.pwrOn = true) (h : Heard)
    (hdisconn : h.disconn = true) (answers : Vector AtAnswer 3) (rest : List (Option Heard)) (hquiet : ∀ h, some h ∈ rest → h.call = .null) :
    ((some h :: answers.toList.flatMap AtAnswer.turns ++ rest).foldl bluetoothTurn t).sent =
      t.sent ++ sentFor [.quitTrans, .disconn, .reset] answers.toList := by
  obtain ⟨hnull, hold⟩ := ht.inv.trans htrans
  obtain ⟨mode, c, old, k, p, sent⟩ := t
  cases htrans
  cases hpwrOn
  cases hold
  have hheard : bluetoothTurn ⟨false, c, .spp, k, true, sent⟩ (some h) =
      ⟨true, .quitTrans, .quitTrans, 0, true, sent ++ [BleAtCmd.text .quitTrans]⟩ := by
    rw [bluetoothTurn, bleRecvDataProcess, if_neg Bool.false_ne_true, bleTransHear, if_pos hdisconn, if_pos rfl,
      bleATCmdSend_first (by decide) (show BleAtCmd.spp ≠ .quitTrans by decide)]
  obtain ⟨old, k, hanswers⟩ := foldl_answers .quitTrans [.disconn, .reset] sent answers.toList (by decide)
    (Vector.length_toList ..)
  rw [List.cons_append, List.foldl_cons, hheard, List.foldl_append, hanswers, foldl_quiet rfl hquiet rfl]

theorem disconnected_module_left_connected :
    ((some (Heard.mk false false false true) :: (Vector.replicate 3 promptAnswer).toList.flatMap AtAnswer.turns ++ [none]).foldl bluetoothTurn
      (connectedRun.foldl bluetoothTurn (bluetoothFresh []))).sent =
        (connectedRun.foldl bluetoothTurn (bluetoothFresh [])).sent ++
          sentFor [.quitTrans, .disconn, .reset] (Vector.replicate 3 promptAnswer).toList :=
  disconnected_module_left _ ⟨connectedRun, rfl⟩ (by decide) (by decide) ⟨false, false, false, true⟩ rfl
    (Vector.replicate 3 promptAnswer) [none] (by simp)

end EnergyRouter
