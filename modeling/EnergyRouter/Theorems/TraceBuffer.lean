import EnergyRouter.EsamBus
import EnergyRouter.Theorems.BleReception
import EnergyRouter.Trace

/-!
# Traces and the buffer they are written in

A frame of the security chip has up to 1026 bytes and a batch over Bluetooth up to 1024, each byte takes two characters of a trace,
and the buffer has room for 1023 characters.
-/

namespace EnergyRouter

open Buffer

/-- What is traced in hexadecimal: a frame sent to the security chip, a reply whose check is right or wrong (then its length is
still 0), and the bytes received over Bluetooth. -/
inductive TraceCall
  | sent (frame : Vector Byte 1024 × Nat) (h : ∃ sendbuf cmd comm, esamFrame sendbuf cmd comm = some frame)
  | reply (bytes : List Byte) (h : ∃ fuel spi comm, (esamSendAndRecvCalls fuel spi comm).1 = .accepted bytes)
  | wrongCheck
  | batch (s : BleReceiver) (h : ∃ (s₀ : BleReceiver) (chunks : List (List Byte)), s₀.rxPre = 0 ∧ s₀.rxPtr = 0 ∧
      chunks.foldlM (fun s bytes => bleUartDataRecv bytes s) s₀ = some s)

/-- The bytes between the pointer and the length that are passed. -/
def TraceCall.bytes : TraceCall → List Byte
  | sent frame _ => front frame.1 frame.2
  | reply bytes _ => bytes
  | wrongCheck => []
  | batch s _ => (s.rxData.toList.drop s.rxPre).take s.rxPtr

/-- The text in front. -/
def TraceCall.function : TraceCall → List Char
  | sent _ _ => ascii "[Esam]:TX:"
  | reply _ _ | wrongCheck => ascii "[Esam]:RX:"
  | batch _ _ => ascii "[bluetooth]:RX:"

/-- The trace is printed, with two digits for each of the bytes in their order. -/
def TraceCall.Printed (c : TraceCall) : Prop :=
  myPrintf c.bytes c.bytes.length .hex true c.function = some [(true, c.function ++ c.bytes.flatMap hexByte ++ ['\n'])]

/-- The loop writes two characters for each byte, as long as there is room for the terminator. -/
theorem hexLoop_eq (buf : List Byte) {text : List Char} (htext : text.length < printfBufferSize) :
    hexLoop buf text =
      if text.length + 2 * buf.length < printfBufferSize then some (text ++ buf.flatMap hexByte) else none := by
  induction buf generalizing text with
  | nil => simp [hexLoop, htext]
  | cons b buf ih =>
    have htwo : (hexByte b).length = 2 := rfl
    rw [hexLoop, catPrintfBuffer, htwo, List.length_cons]
    by_cases hroom : text.length + 2 + 1 ≤ printfBufferSize
    · have hlen : (text ++ hexByte b).length = text.length + 2 := by rw [List.length_append, htwo]
      rw [if_pos hroom, Option.bind_some, ih (by omega), hlen, List.flatMap_cons, List.append_assoc,
        show text.length + 2 + 2 * buf.length = text.length + 2 * (buf.length + 1) by omega]
    · rw [if_neg hroom, if_neg (by omega), Option.bind_none]

theorem printed_eq (c : TraceCall) : c.Printed ↔ 2 * c.bytes.length < printfBufferSize := by
  have hloop := hexLoop_eq c.bytes (show ([] : List Char).length < printfBufferSize by decide)
  rw [List.length_nil, Nat.zero_add, List.nil_append] at hloop
  rw [TraceCall.Printed, myPrintf, if_pos (Nat.le_refl _), List.take_length, hloop]
  split_ifs with hroom
  · exact ⟨fun _ => hroom, fun _ => rfl⟩
  · exact ⟨fun h => (by cases h), fun h => absurd h hroom⟩

/-- A trace is printed as it should be exactly when it is one of at most 511 bytes. -/
theorem trace_printed_iff (c : TraceCall) : c.Printed ↔ c.bytes.length ≤ 511 := by
  have hsize : printfBufferSize = 1024 := rfl
  rw [printed_eq]
  omega

/-- Whatever is received at once is traced, up to the size of the receive buffer. -/
theorem exists_batch {s : BleReceiver} (hpre : s.rxPre = 0) (hptr : s.rxPtr = 0) {bytes : List Byte} (hlen : bytes.length < 1024) :
    ∃ c : TraceCall, c.bytes = bytes := by
  have hrecv : bleUartDataRecv bytes s = some { s with rxData := copyAt s.rxData 0 bytes, rxPtr := bytes.length, rxBeg := true } := by
    rw [bleUartDataRecv, hptr, if_neg (by omega), blit_of_length rfl (by omega), Nat.zero_add]
    rfl
  refine ⟨.batch _ ⟨s, [bytes], hpre, hptr, by rw [List.foldlM_cons, hrecv]; rfl⟩, ?_⟩
  rw [TraceCall.bytes, hpre, List.drop_zero]
  exact front_copyAt_zero s.rxData bytes (by omega)

/-- A batch of 512 bytes does not fit. -/
theorem batch_not_printed : ∃ c : TraceCall, c.bytes = List.replicate 512 0 ∧ ¬ c.Printed := by
  have hlen : (List.replicate 512 (0 : Byte)).length = 512 := List.length_replicate
  have hpre : zeroReceiver.rxPre = 0 := rfl
  have hptr : zeroReceiver.rxPtr = 0 := rfl
  obtain ⟨c, hc⟩ := exists_batch hpre hptr (show (List.replicate 512 (0 : Byte)).length < 1024 by rw [hlen]; decide)
  refine ⟨c, hc, ?_⟩
  rw [printed_eq, hc, hlen]
  decide

end EnergyRouter
