import EnergyRouter.Lib.Runs
import EnergyRouter.ParaBuff

/-!
# Life of the buffer of the stores

A call allocates the shared buffer before it takes the mutex and frees it before it releases it. So a call that entered meanwhile
finds it freed, unless a third one has entered since.
-/

namespace EnergyRouter

open Runs

variable {Thread : Type}

/-- While a call holds the mutex, the buffer is there. -/
def ParaBuff.Held (s : ParaBuff Thread) : Prop := s.holder.isSome → s.buff.isSome

/-- Every allocation is freed once, in its turn, but for the one still in use; and with no call under way none is in use. -/
structure ParaBuff.FreedOnce (s : ParaBuff Thread) : Prop where
  freed : s.freed ++ s.buff.toList = List.range s.allocated
  quiet : (∀ i, s.point i = .idle) → s.buff = none

/-- Between the end of a call and the next one that takes the mutex, some call enters and finds memory; `filled` tells whether one
has. -/
def Replenished : Bool → List (StorageAction Thread) → Prop
  | _, [] => True
  | filled, .enter _ memory :: actions => Replenished (filled || memory) actions
  | filled, .take _ :: actions => filled = true ∧ Replenished filled actions
  | _, .finish _ :: actions => Replenished false actions

instance decidableReplenished : ∀ (filled : Bool) (actions : List (StorageAction Thread)), Decidable (Replenished filled actions)
  | _, [] => isTrue trivial
  | filled, .enter _ memory :: actions => decidableReplenished (filled || memory) actions
  | filled, .take _ :: actions =>
    have : Decidable (Replenished filled actions) := decidableReplenished filled actions
    inferInstanceAs (Decidable (_ ∧ _))
  | _, .finish _ :: actions => decidableReplenished false actions

/-- In the middle of a run: the account of the allocations is right, and an allocated buffer belongs to a call under way. -/
structure ParaBuff.Inv (s : ParaBuff Thread) : Prop where
  freed : s.freed ++ s.buff.toList = List.range s.allocated
  busy : s.buff.isSome → ∃ i, s.point i ≠ .idle

theorem ParaBuff.init_inv : (ParaBuff.init Thread).Inv := ⟨rfl, fun hbuff => absurd hbuff Bool.false_ne_true⟩

theorem ParaBuff.init_held : (ParaBuff.init Thread).Held := fun hholder => absurd hholder Bool.false_ne_true

theorem ParaBuff.Inv.freedOnce {s : ParaBuff Thread} (h : s.Inv) : s.FreedOnce := by
  refine ⟨h.freed, ?_⟩
  intro hquiet
  by_contra hbuff
  obtain ⟨i, hi⟩ := h.busy (Option.isSome_iff_ne_none.mpr hbuff)
  exact hi (hquiet i)

variable [DecidableEq Thread]

/-- The beginning of a call: nothing without memory; else the thread waits, with the buffer there already or allocated now. -/
theorem ParaBuff.enter_cases {s s' : ParaBuff Thread} {i : Thread} {memory : Bool} (h : s.step (.enter i memory) = some s') :
    (s.buff = none ∧ memory = false ∧ s' = s) ∨
    (s.buff = none ∧ memory = true ∧ s' = { s with
      buff := some s.allocated
      allocated := s.allocated + 1
      point := Function.update s.point i .entered }) ∨
    (s.buff.isSome ∧ s' = { s with point := Function.update s.point i .entered }) := by
  unfold ParaBuff.step at h
  dsimp only at h
  split_ifs at h with hidle
  split at h
  · rename_i b hbuff
    exact .inr (.inr ⟨by rw [hbuff, Option.isSome_some], (Option.some.inj h).symm⟩)
  · rename_i hbuff
    exact .inr (.inl ⟨hbuff, rfl, (Option.some.inj h).symm⟩)
  · rename_i hbuff
    exact .inl ⟨hbuff, rfl, (Option.some.inj h).symm⟩

theorem ParaBuff.take_eq {s s' : ParaBuff Thread} {i : Thread} (h : s.step (.take i) = some s') :
    s' = { s with holder := some i, point := Function.update s.point i .inside } := by
  unfold ParaBuff.step at h
  dsimp only at h
  split_ifs at h with hfree
  exact (Option.some.inj h).symm

theorem ParaBuff.finish_eq {s s' : ParaBuff Thread} {i : Thread} (h : s.step (.finish i) = some s') :
    s' = { s with
      freed := s.freed ++ s.buff.toList
      buff := none
      holder := none
      point := Function.update s.point i .idle } := by
  unfold ParaBuff.step at h
  dsimp only at h
  split_ifs at h with hinside
  exact (Option.some.inj h).symm

/-- While the buffer has been there so far, it is there for all calls exactly when it is replenished. -/
theorem ParaBuff.keeps_held_iff {s s' : ParaBuff Thread} (hheld : s.Held) {actions : List (StorageAction Thread)}
    (hrun : run ParaBuff.step s actions = some s') :
    Keeps ParaBuff.step (fun _ s => s.Held) s actions ↔ Replenished s.buff.isSome actions := by
  induction actions generalizing s with
  | nil => exact Iff.rfl
  | cons a actions ih =>
    obtain ⟨s₁, hs₁, hrun⟩ := Option.bind_eq_some_iff.mp hrun
    have hkeeps : Keeps ParaBuff.step (fun _ s => s.Held) s (a :: actions) ↔
        s₁.Held ∧ Replenished s₁.buff.isSome actions := by
      constructor
      · rintro ⟨s₂, hs₂, hheld₂, hrest⟩
        cases hs₁.symm.trans hs₂
        exact ⟨hheld₂, (ih hheld₂ hrun).mp hrest⟩
      · rintro ⟨hheld₁, hrest⟩
        exact ⟨s₁, hs₁, hheld₁, (ih hheld₁ hrun).mpr hrest⟩
    rw [hkeeps]
    cases a with
    | enter i memory =>
      show _ ↔ Replenished (s.buff.isSome || memory) actions
      obtain ⟨hbuff, rfl, rfl⟩ | ⟨hbuff, rfl, rfl⟩ | ⟨hbuff, rfl⟩ := enter_cases hs₁
      · rw [Bool.or_false]
        exact and_iff_right hheld
      · rw [Bool.or_true]
        exact and_iff_right fun _ => rfl
      · rw [hbuff, Bool.true_or]
        exact and_iff_right fun _ => hbuff
    | take i =>
      cases take_eq hs₁
      refine and_congr_left fun _ => ?_
      exact ⟨fun h => h rfl, fun h _ => h⟩
    | finish i =>
      cases finish_eq hs₁
      exact and_iff_right nofun

theorem ParaBuff.Inv.step {s s' : ParaBuff Thread} {a : StorageAction Thread} (h : s.Inv) (hstep : s.step a = some s') : s'.Inv := by
  obtain ⟨hfreed, hbusy⟩ := h
  have hupdate : ∀ (i : Thread) (point : CallPoint), point ≠ .idle → ∃ j, Function.update s.point i point j ≠ .idle := by
    intro i point hpoint
    exact ⟨i, by rwa [Function.update_self]⟩
  cases a with
  | enter i memory =>
    obtain ⟨-, -, rfl⟩ | ⟨hbuff, -, rfl⟩ | ⟨-, rfl⟩ := enter_cases hstep
    · exact ⟨hfreed, hbusy⟩
    · refine ⟨?_, fun _ => hupdate i .entered nofun⟩
      rw [hbuff, Option.toList_none, List.append_nil] at hfreed
      rw [hfreed, List.range_succ]
      rfl
    · exact ⟨hfreed, fun _ => hupdate i .entered nofun⟩
  | take i =>
    cases take_eq hstep
    exact ⟨hfreed, fun _ => hupdate i .inside nofun⟩
  | finish i =>
    cases finish_eq hstep
    refine ⟨?_, nofun⟩
    rw [Option.toList_none, List.append_nil, hfreed]

/-- Over every interleaving of calls: every allocation is freed exactly once, and the buffer is there for every call that holds the
mutex exactly when it is replenished between a call and the next. -/
theorem buffer_lifecycle_iff {actions : List (StorageAction Thread)} {s : ParaBuff Thread}
    (hrun : run ParaBuff.step (ParaBuff.init Thread) actions = some s) :
    Keeps ParaBuff.step (fun _ s => s.FreedOnce) (ParaBuff.init Thread) actions ∧
      (Keeps ParaBuff.step (fun _ s => s.Held) (ParaBuff.init Thread) actions ↔ Replenished false actions) :=
  ⟨(keeps_of_run (fun _ _ _ h hstep => h.step hstep) ParaBuff.init_inv hrun).imp fun _ _ h => h.freedOnce,
    ParaBuff.keeps_held_iff ParaBuff.init_held hrun⟩

/-- Two calls one after the other, and a third that enters while the second holds the mutex. -/
theorem buffer_lifecycle_three :
    Keeps ParaBuff.step (fun _ s => s.Held) (ParaBuff.init (Fin 3))
      [.enter 0 true, .take 0, .finish 0, .enter 1 true, .take 1, .enter 2 true, .finish 1] :=
  (buffer_lifecycle_iff (Option.eq_some_of_isSome (by decide))).2.mpr (by decide)

/-- The second of two calls that overlap takes the mutex without a buffer. -/
theorem overlapping_call_without_buffer :
    ((run ParaBuff.step (ParaBuff.init Bool)
      [.enter false true, .enter true true, .take false, .finish false, .take true]).map fun s => (s.holder, s.buff)) =
        some (some true, none) := by
  decide

end EnergyRouter
