import EnergyRouter.Lib.Runs
import EnergyRouter.ScreenThread

/-!
# Keys and pages

A key may be pressed between any two statements of the thread. Over every run: with which keys the page there is is the page the keys
have asked for, and the backlight is what its variable says.
-/

namespace EnergyRouter

open Runs

/-! ## The backlight -/

/-- The backlight is about to be switched off, and its variable says so already. -/
def ScreenThread.Closing (s : ScreenThread) : Prop := s.next = .setScr ∨ s.next = .backOff

/-- The variable says what the backlight is, or is about to be. -/
structure ScreenThread.Told (s : ScreenThread) : Prop where
  closing : s.Closing → s.bkState = 1
  lit : ¬s.Closing → (s.lit = true ↔ s.bkState ≠ 1)

/-- Every statement keeps this. -/
theorem ScreenThread.Told.exec {s : ScreenThread} (hs : s.Told) : s.exec.Told := by
  obtain ⟨next, scrNum, pas, time, state, lit, due⟩ := s
  have hopen (hnext : next ≠ .setScr ∧ next ≠ .backOff) : lit = true ↔ state ≠ 1 := hs.lit (not_or.mpr hnext)
  cases next with
  | setScr => exact ⟨fun _ => hs.closing (.inl rfl), fun h => absurd (.inr rfl) h⟩
  | backOff =>
    have hstate : state = 1 := hs.closing (.inr rfl)
    exact ⟨(by rintro (h | h) <;> cases h), fun _ => by simp [ScreenThread.exec, hstate]⟩
  | setState => exact ⟨fun _ => rfl, fun h => absurd (.inl rfl) h⟩
  | compare | choose | judge =>
    refine ⟨?_, fun _ => hopen (by simp)⟩
    rintro (h | h) <;> (dsimp only [ScreenThread.exec] at h; split_ifs at h)
  | noteScr | notePas | count | setTime => exact ⟨(by rintro (h | h) <;> cases h), fun _ => hopen (by simp)⟩

/-- A key does not while the backlight is switched off. -/
theorem keyCallback_told_iff (s : ScreenThread) : (keyCallback s).Told ↔ ¬s.Closing := by
  have hkey : (keyCallback s).next = s.next ∧ (keyCallback s).lit = true ∧ (keyCallback s).bkState = 0 := by
    unfold keyCallback
    split_ifs <;> exact ⟨rfl, rfl, rfl⟩
  obtain ⟨hnext, hlit, hstate⟩ := hkey
  refine ⟨fun h hclosing => ?_, fun hopen => ⟨fun h => ?_, fun _ => by simp [hlit, hstate]⟩⟩
  · have hone := h.closing (by rwa [ScreenThread.Closing, hnext])
    rw [hstate] at hone
    cases hone
  · rw [ScreenThread.Closing, hnext] at h
    exact absurd h hopen

/-- Over every run: the variable says what the backlight is, exactly when no key is pressed between the two statements that set the
variable and switch the backlight off. -/
theorem backlight_told_iff (ops : List ScreenOp) :
    Meets screenStep (fun s op => op = .key → ¬s.Closing) screenStart ops ↔ Keeps screenStep (fun _ s => s.Told) screenStart ops := by
  have hstart : screenStart.Told := ⟨(by rintro (h | h) <;> cases h), fun _ => by simp [screenStart]⟩
  refine meets_iff_keeps (fun s op (hs : ScreenThread.Told s) => ?_) (fun _ _ _ _ _ h => h) hstart ops
  cases op with
  | thread => simp [screenStep, hs.exec]
  | key => simp [screenStep, keyCallback_told_iff]

/-! ## The pages -/

/-- The page there is is the one the keys have asked for, and so is the page that is drawn. -/
structure ScreenThread.Asked (s : ScreenThread) : Prop where
  page : s.scrNum = s.due
  drawn : ∀ page, s.next = .noteScr page → page = s.scrNum

/-- Every statement keeps this. -/
theorem ScreenThread.Asked.exec {s : ScreenThread} (hs : s.Asked) : s.exec.Asked := by
  obtain ⟨next, scrNum, pas, time, state, lit, due⟩ := s
  obtain ⟨rfl, hdrawn⟩ : scrNum = due ∧ ∀ page, next = .noteScr page → page = scrNum := ⟨hs.page, hs.drawn⟩
  cases next with
  | choose =>
    refine ⟨rfl, fun page h => ?_⟩
    dsimp only [ScreenThread.exec] at h ⊢
    split_ifs at h
    cases h
    rfl
  | noteScr page => exact ⟨hdrawn page rfl, fun _ h => by cases h⟩
  | compare | judge =>
    refine ⟨rfl, fun page h => ?_⟩
    dsimp only [ScreenThread.exec] at h
    split_ifs at h
  | notePas | count | setTime | setState | setScr | backOff => exact ⟨rfl, fun _ h => by cases h⟩

theorem nextPage_ne (page : Nat) : nextPage page ≠ page := by
  unfold nextPage
  split_ifs <;> omega

theorem ScreenThread.Asked.key_iff {s : ScreenThread} (hs : s.Asked) :
    (keyCallback s).Asked ↔ (s.bkState ≠ 1 → ∀ page, s.next ≠ .noteScr page) := by
  unfold keyCallback
  split_ifs with hon
  · refine ⟨fun h _ page hnext => ?_, fun h => ⟨congrArg nextPage hs.page, fun page hnext => absurd hnext (h hon page)⟩⟩
    have hpage := h.drawn page hnext
    rw [hs.drawn page hnext] at hpage
    exact nextPage_ne _ hpage.symm
  · exact ⟨fun _ h => absurd h hon, fun _ => ⟨hs.page, hs.drawn⟩⟩

end EnergyRouter
