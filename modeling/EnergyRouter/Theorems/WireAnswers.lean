import EnergyRouter.Lemmas.Desk
import EnergyRouter.Lib.Runs

/-!
# What the answer to a start or a stop says

The outcome of a start or a stop is not looked at on the way to the answer: what goes out over the wire is success, whatever it was.
-/

namespace EnergyRouter

open Calls Runs

/-! ## The outcome handed back -/

/-- The command an acknowledgement of the energy control is about. -/
def CommCmd.acknowledges : CommCmd → Option Asked
  | .startChgAck => some .startChg
  | .stopChgAck => some .stopChg
  | _ => none

/-- The desk and the last outcome handed back for each command (`cSucIdle`). -/
structure Wire where
  desk : Desk
  told : Asked → Option Byte

/-- The outcome an event hands back. -/
def Wire.tell (s : Wire) : DeskOp → Asked → Option Byte
  | .post cmd (.ctl c) => fun k => if cmd.acknowledges = some k then some c.cSucIdle else s.told k
  | _ => s.told

def Wire.step (s : Wire) (op : DeskOp) : Option Wire := (s.desk.next op).map fun desk => ⟨desk, s.tell op⟩

/-- Nothing was handed back yet. -/
def powerUpWire : Wire := ⟨powerUpDesk, fun _ => none⟩

/-- The answers an event sends out. -/
def Wire.sent (s s' : Wire) : List (Service698 × List Byte) := s'.desk.2.answers.drop s.desk.2.answers.length

/-- The user data answer a method: its object and its number are in them. -/
def AnswersTo (k : Asked) (answer : Service698 × List Byte) : Prop :=
  answer.1 = .action ∧ answer.2[3]? = some 0x90 ∧ answer.2[4]? = some k.oi1 ∧ answer.2[5]? = some k.attributeId
deriving Decidable

/-- The result of the method in the answer (`DAR`); 0 is success. -/
def dar (answer : Service698 × List Byte) : Option Byte := answer.2[7]?

/-- The commands that are acknowledged with an outcome. -/
def startStop : List Asked := [.startChg, .stopChg]

/-- Every answer to a start or a stop carries a result, and it is success exactly when the outcome handed back is. -/
def Reflects (s : Wire) (op : DeskOp) : Prop :=
  ∀ s' ∈ s.step op, ∀ answer ∈ s.sent s', ∀ k ∈ startStop, AnswersTo k answer →
    (dar answer).isSome ∧ (dar answer = some 0 ↔ s.told k = some successful)
deriving Decidable

/-- A start or a stop is answered only when it was successful. -/
def AnswersSuccess (s : Wire) (op : DeskOp) : Prop :=
  ∀ s' ∈ s.step op, ∀ answer ∈ s.sent s', ∀ k ∈ startStop, AnswersTo k answer → s.told k = some successful

/-! ## Every answer says success -/

/-- The desk is sound, and every answer so far says success. -/
structure AllSuccess (w : Office) : Prop where
  sound : Sound w
  answers : ∀ answer ∈ w.answers, SaysSuccess answer

theorem Works.allSuccess {w w' : Office} (h : Works w w') (hw : AllSuccess w) : AllSuccess w' :=
  ⟨h.sound hw.sound, h.answers hw.sound hw.answers⟩

theorem Keeping.allSuccess {k : Asked} {req : Request} {w w' : Office} (h : Keeping k req w w') (hw : AllSuccess w) :
    AllSuccess w' := by
  refine ⟨h.sound hw.sound, ?_⟩
  rw [h.answers]
  exact hw.answers

theorem Aside.allSuccess {w w' : Office} (h : Aside w w') (hw : AllSuccess w) : AllSuccess w' := by
  refine ⟨h.sound hw.sound, ?_⟩
  rw [h.answers]
  exact hw.answers

theorem Desk.next_allSuccess {desk desk' : Desk} {op : DeskOp} (hdesk : AllSuccess desk.2) (h : desk.next op = some desk') :
    AllSuccess desk'.2 := by
  have hfinishes : Finishes (fun _ => True) (fun d => AllSuccess d.2) (desk.step op) := by
    by_cases hrequest : ∃ env dataRev, op = .request env dataRev
    · obtain ⟨env, dataRev, rfl⟩ := hrequest
      exact env.request_finishes trivial trivial (fun _ _ => Works.allSuccess) (fun _ _ => .inl trivial)
        (fun _ _ _ _ => Keeping.allSuccess) (fun _ _ _ => Keeping.allSuccess) (.inl trivial) hdesk
    · have hnot : ∀ env dataRev, op ≠ .request env dataRev := fun env dataRev heq => hrequest ⟨env, dataRev, heq⟩
      refine (Desk.step_of_not_request trivial trivial (.inl trivial) hnot).imp fun d hd => ?_
      rcases hd with haside | hworks
      · exact haside.allSuccess hdesk
      · exact hworks.allSuccess hdesk
  exact hfinishes.post_of_toOption h

theorem powerUpOffice_allSuccess : AllSuccess powerUpOffice := ⟨⟨rfl, rfl⟩, nofun⟩

theorem Wire.step_eq_some {s s' : Wire} {op : DeskOp} (h : s.step op = some s') : s.desk.next op = some s'.desk := by
  obtain ⟨desk, hdesk, rfl⟩ := Option.map_eq_some_iff.mp h
  exact hdesk

theorem dar_of_saysSuccess {k : Asked} (hk : k ∈ startStop) {answer : Service698 × List Byte} (h : SaysSuccess answer)
    (hanswers : AnswersTo k answer) : dar answer = some 0 := by
  obtain ⟨hservice, _, hoi, _⟩ := hanswers
  refine h hservice ?_
  rw [hoi]
  simp only [startStop, List.mem_cons, List.not_mem_nil, or_false] at hk
  rcases hk with rfl | rfl
  · rfl
  · rfl

/-! ## Runs -/

/-- A start request, the outcome the energy control hands back for it, and a poll. -/
def startAnswered (cSucIdle : Byte) : List DeskOp :=
  [.request bareServices (receivedApdu [7, 1, 0, 0x90, 0x04, 0x7f, 0, 0, 0]),
    .post .startChgAck (.ctl ⟨Vector.replicate 17 0, Vector.replicate 23 0, 0, 0, cSucIdle⟩), .poll bareServices]

example : Meets Wire.step Reflects powerUpWire (startAnswered successful) := by decide +kernel

end EnergyRouter
