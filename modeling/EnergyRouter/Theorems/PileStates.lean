import EnergyRouter.Lemmas.Pile

/-!
# The states the pile comes to

What a single step can do to the state of the pile is said once (`MayFollow`); the course of the states since the system started
follows from it.
-/

namespace EnergyRouter

open Runs

/-! ## The course of the states -/

/-- The states the pile comes to. -/
def courseStates : List PileState :=
  [.waitVertionCheck, .waitPilePara, .standby, .chargStart, .waitChargeStartFrameAsk, .charging, .toCheck, .waitStop, .chargEnd]

/-- What happens to the pile. The two parts of a turn of the task are steps of their own: messages may come between them. -/
inductive PileStep
  | receive (msg : CanMsg)
  | start
  | stop
  | order
  | switch
  | second
  deriving DecidableEq, Repr

/-- The pile and the states it was in since the system started, the newest first. -/
structure Course where
  pile : Pile
  visited : List PileState

def Course.enter (t : Course) (pile : Pile) : Course := ⟨pile, pile.chgState :: t.visited⟩

/-- One step. A message that starts the system again starts the course again. -/
def Course.step (t : Course) : PileStep → Option Course
  | .receive msg =>
    (canV110RecProtocal msg t.pile).map fun pile => if msg.Restarts then ⟨pile, [pile.chgState]⟩ else t.enter pile
  | .start => (chargepileDataGetSet .chargeStart none t.pile).map fun out => t.enter out.2.2
  | .stop => (chargepileDataGetSet .chargeStop none t.pile).map fun out => t.enter out.2.2
  | .order => some (t.enter (taskOrder t.pile))
  | .switch => some (t.enter (taskSwitch t.pile))
  | .second => some (t.enter (canHeartTxCallback t.pile))

/-- The course when the task has set the first state. -/
def Course.first : Course := ⟨initPile, [initPile.chgState]⟩

/-- How often a state was entered. -/
def entries (state : PileState) : List PileState → Nat
  | newer :: older :: rest => (if newer = state ∧ older ≠ state then 1 else 0) + entries state (older :: rest)
  | _ => 0

/-- The states are among the nine, so three branches of the source never run; the wait for the version check comes only after
itself; the wait for the parameters was entered at most once. -/
structure Course.Within (t : Course) : Prop where
  states : ∀ state ∈ t.visited, state ∈ courseStates
  unreached : .update ∉ t.visited ∧ .waitChargeStopFrameAsk ∉ t.visited ∧ .powerON ∉ t.visited
  never_back : t.visited.IsChain fun newer older => newer = .waitVertionCheck → older = .waitVertionCheck
  once : entries .waitPilePara t.visited ≤ 1

/-! ## What a step does to the state -/

/-- A state may follow another: it stays, or it goes to one of the later states, or from the version check to the parameters. -/
def MayFollow (newer older : PileState) : Prop :=
  newer = older ∨ newer ∈ courseStates.drop 2 ∨ (newer = .waitPilePara ∧ older = .waitVertionCheck)

theorem MayFollow.rfl {state : PileState} : MayFollow state state := .inl (Eq.refl _)

theorem mayFollow_of_mem {newer older : PileState} (h : newer ∈ courseStates.drop 2) : MayFollow newer older := .inr (.inl h)

theorem mayFollow_ite {c : Prop} [Decidable c] {newer older : PileState} (h : c → MayFollow newer older) :
    MayFollow (if c then newer else older) older := by
  by_cases hc : c
  · rw [if_pos hc]
    exact h hc
  · rw [if_neg hc]
    exact MayFollow.rfl

/-- Every message that does not start the system again. -/
theorem stateAfter_mayFollow (msg : CanMsg) (s : Pile) (h : ¬ msg.Restarts) : MayFollow (stateAfter msg s) s.chgState := by
  unfold stateAfter
  split
  next =>
    rw [← ite_not]
    exact mayFollow_ite fun _ => mayFollow_of_mem (by decide)
  next => exact mayFollow_ite fun hc => .inr (.inr ⟨rfl, hc.2.1⟩)
  next => exact mayFollow_ite fun _ => mayFollow_of_mem (by decide)
  next => exact mayFollow_ite fun _ => mayFollow_of_mem (by decide)
  next => exact mayFollow_ite fun _ => mayFollow_of_mem (by decide)
  next => exact mayFollow_ite fun _ => mayFollow_of_mem (by decide)
  next hframe => exact mayFollow_ite fun hreset => absurd ⟨hframe, hreset⟩ h
  next => exact MayFollow.rfl

theorem chargeStart_mayFollow (s : Pile) : MayFollow (chargeStart s).2.chgState s.chgState := by
  rcases chargeStart_cases s with ⟨-, hleaves⟩ | hquiet
  · rw [hleaves.state]
    exact mayFollow_of_mem (by decide)
  · rw [hquiet.state]
    exact MayFollow.rfl

theorem chargeStop_mayFollow (s : Pile) : MayFollow (chargeStop s).2.chgState s.chgState := by
  rcases chargeStop_cases s with ⟨-, hleaves⟩ | hquiet
  · rw [hleaves.state]
    exact mayFollow_of_mem (by decide)
  · rw [hquiet.state]
    exact MayFollow.rfl

theorem taskOrder_mayFollow (s : Pile) : MayFollow (taskOrder s).chgState s.chgState := by
  rcases taskOrder_cases s with h | h | h
  · rw [h]
    exact chargeStart_mayFollow s
  · rw [h]
    exact chargeStop_mayFollow s
  · rw [h]
    exact MayFollow.rfl

theorem taskSwitch_mayFollow (s : Pile) : MayFollow (taskSwitch s).chgState s.chgState := by
  rcases taskSwitch_cases s with ⟨-, hleaves⟩ | ⟨-, hleaves⟩ | ⟨-, hleaves⟩ | hquiet
  · rw [hleaves.state]
    exact mayFollow_of_mem (by decide)
  · rw [hleaves.state]
    exact mayFollow_of_mem (by decide)
  · rw [hleaves.state]
    exact mayFollow_of_mem (by decide)
  · rw [hquiet.state]
    exact MayFollow.rfl

/-! ## The invariant -/

/-- The states visited are among the nine, each follows the one before, the newest is the pile's, and the wait for the parameters
was not entered before the version check was left. -/
structure Course.Inv (t : Course) : Prop where
  newest : t.visited.head? = some t.pile.chgState
  states : ∀ state ∈ t.visited, state ∈ courseStates
  follows : t.visited.IsChain MayFollow
  once : entries .waitPilePara t.visited ≤ 1
  unentered : t.pile.chgState = .waitVertionCheck → entries .waitPilePara t.visited = 0

theorem Course.inv_start (pile : Pile) (h : pile.chgState = .waitVertionCheck) : Course.Inv ⟨pile, [pile.chgState]⟩ := by
  refine ⟨rfl, ?_, .singleton _, Nat.zero_le _, fun _ => rfl⟩
  intro state hstate
  rw [List.mem_singleton.mp hstate, h]
  decide

/-- A step to a state that may follow keeps the invariant. -/
theorem Course.Inv.enter {t : Course} (h : t.Inv) {pile : Pile} (hfollows : MayFollow pile.chgState t.pile.chgState) :
    (t.enter pile).Inv := by
  obtain ⟨older, rest, hvisited⟩ : ∃ older rest, t.visited = older :: rest := by
    cases hlist : t.visited with
    | nil =>
      have := h.newest
      rw [hlist] at this
      cases this
    | cons older rest => exact ⟨older, rest, rfl⟩
  have holder : older = t.pile.chgState := by
    have := h.newest
    rw [hvisited] at this
    exact Option.some.inj this
  subst holder
  have hentries : entries .waitPilePara (t.enter pile).visited =
      (if pile.chgState = .waitPilePara ∧ t.pile.chgState ≠ .waitPilePara then 1 else 0) + entries .waitPilePara t.visited := by
    rw [Course.enter, hvisited, entries]
  refine ⟨rfl, ?_, ?_, ?_, ?_⟩
  · intro state hstate
    rcases List.mem_cons.mp hstate with rfl | hold
    · have hold : t.pile.chgState ∈ courseStates := h.states _ (by rw [hvisited]; exact List.mem_cons_self)
      rcases hfollows with heq | hlater | ⟨hpara, _⟩
      · rw [heq]
        exact hold
      · exact List.mem_of_mem_drop hlater
      · rw [hpara]
        decide
    · exact h.states state hold
  · rw [Course.enter, hvisited]
    refine .cons_cons hfollows ?_
    rw [← hvisited]
    exact h.follows
  · rw [hentries]
    split_ifs with hentered
    · -- the wait for the parameters is entered from the version check, where it was not entered before
      have hcheck : t.pile.chgState = .waitVertionCheck := by
        rcases hfollows with heq | hlater | ⟨_, hcheck⟩
        · exact absurd (heq ▸ hentered.1) hentered.2
        · rw [hentered.1] at hlater
          exact absurd hlater (by decide)
        · exact hcheck
      rw [h.unentered hcheck]
    · rw [Nat.zero_add]
      exact h.once
  · intro hcheck
    have hbefore : t.pile.chgState = .waitVertionCheck := by
      rcases hfollows with heq | hlater | ⟨hpara, _⟩
      · exact heq.symm.trans hcheck
      · have hstate : pile.chgState = .waitVertionCheck := hcheck
        rw [hstate] at hlater
        exact absurd hlater (by decide)
      · exact absurd (hpara.symm.trans hcheck) (by decide)
    have hstate : pile.chgState = .waitVertionCheck := hcheck
    have hother : ¬ pile.chgState = .waitPilePara := by
      rw [hstate]
      decide
    rw [hentries, h.unentered hbefore, if_neg fun hentered => hother hentered.1]

theorem Course.Inv.step {t t' : Course} (h : t.Inv) {op : PileStep} (hstep : t.step op = some t') : t'.Inv := by
  cases op with
  | receive msg =>
    obtain ⟨pile, hpile, rfl⟩ := Option.map_eq_some_iff.mp hstep
    have hleaves := (canV110RecProtocal_outcome msg t.pile).post_of_some hpile
    by_cases hrestarts : msg.Restarts
    · rw [if_pos hrestarts]
      refine Course.inv_start pile ?_
      rw [hleaves.state, stateAfter, hrestarts.1]
      exact if_pos hrestarts.2
    · rw [if_neg hrestarts]
      refine h.enter ?_
      rw [hleaves.state]
      exact stateAfter_mayFollow msg t.pile hrestarts
  | start =>
    cases hstep
    exact h.enter (chargeStart_mayFollow t.pile)
  | stop =>
    cases hstep
    exact h.enter (chargeStop_mayFollow t.pile)
  | order =>
    cases hstep
    exact h.enter (taskOrder_mayFollow t.pile)
  | switch =>
    cases hstep
    exact h.enter (taskSwitch_mayFollow t.pile)
  | second =>
    cases hstep
    refine h.enter ?_
    rw [(canHeartTxCallback_calm t.pile).leaves.state]
    exact MayFollow.rfl

theorem Course.Inv.within {t : Course} (h : t.Inv) : t.Within := by
  have hnot : ∀ state, state ∉ courseStates → state ∉ t.visited := fun state hout hin => hout (h.states state hin)
  refine ⟨h.states, ⟨hnot _ (by decide), hnot _ (by decide), hnot _ (by decide)⟩, ?_, h.once⟩
  refine h.follows.imp ?_
  rintro newer older hfollows rfl
  rcases hfollows with heq | hlater | ⟨hpara, _⟩
  · exact heq.symm
  · exact absurd hlater (by decide)
  · cases hpara

end EnergyRouter
