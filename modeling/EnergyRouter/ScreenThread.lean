import Mathlib.Logic.Function.Basic

/-!
# The thread of the screen

The loop of `screen_thread_entry` statement by statement, with `key_callback` between any two of them. What is drawn is left out: a
page is chosen, and noted when it is drawn.
-/

namespace EnergyRouter

/-- The next statement of the loop. -/
inductive ScreenStatement
  | compare
  | choose
  | noteScr (page : Nat)
  | notePas (page : Nat)
  | count
  | judge
  | setTime
  | setState
  | setScr
  | backOff
  deriving DecidableEq, Repr

/-- The variables of the thread. `lit` tells whether the backlight is on, and `due` the page that the keys have asked for. -/
structure ScreenThread where
  next : ScreenStatement
  scrNum : Nat
  pasPageNum : Nat
  bkTime : Nat
  bkState : Nat
  lit : Bool
  due : Nat
  deriving DecidableEq, Repr

/-- The page a key leads to. -/
def nextPage (page : Nat) : Nat := if 4 < page + 1 then 1 else page + 1

/-- `key_callback`. -/
def keyCallback (s : ScreenThread) : ScreenThread :=
  if s.bkState ≠ 1 then { s with lit := true, scrNum := nextPage s.scrNum, due := nextPage s.due, bkTime := 0, bkState := 0 }
  else { s with lit := true, bkTime := 0, bkState := 0 }

/-- A statement of the loop. The first page is drawn between its choice and the note of it, the others after it. -/
def ScreenThread.exec (s : ScreenThread) : ScreenThread :=
  match s.next with
  | .compare => { s with next := if s.scrNum ≠ s.pasPageNum then .choose else .count }
  | .choose => { s with next := if 1 ≤ s.scrNum ∧ s.scrNum ≤ 4 then .noteScr s.scrNum else .count }
  | .noteScr page => { s with next := .notePas page, scrNum := page }
  | .notePas page => { s with next := .count, pasPageNum := page }
  | .count => { s with next := .judge, bkTime := (s.bkTime + 1) % 256 }
  | .judge => { s with next := if 30 < s.bkTime ∧ s.bkState ≠ 1 then .setTime else .compare }
  | .setTime => { s with next := .setState, bkTime := 30 }
  | .setState => { s with next := .setScr, bkState := 1 }
  | .setScr => { s with next := .backOff, scrNum := 1, due := 1 }
  | .backOff => { s with next := .compare, lit := false }

/-- The thread goes on, or the key is pressed. -/
inductive ScreenOp
  | thread
  | key

def screenStep (s : ScreenThread) : ScreenOp → Option ScreenThread
  | .thread => some s.exec
  | .key => some (keyCallback s)

/-- The thread when it comes to its loop. -/
def screenStart : ScreenThread := ⟨.compare, 1, 0xff, 0, 0, true, 1⟩

end EnergyRouter
