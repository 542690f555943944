import EnergyRouter.Scan

/-!
# Traces of what is sent and received

`my_printf` writes bytes as text into `Printf_Buffer`. A text that does not fit with its terminator has no outcome in the model.
Characters are unsigned on the processor.
-/

namespace EnergyRouter

/-- The size of `Printf_Buffer`. -/
def printfBufferSize : Nat := 1024

/-- The types of output `my_printf` has a case for, and any other. -/
inductive PrintType
  | hex | char | other
  deriving DecidableEq, Repr

/-- `strcat` to `Printf_Buffer`. -/
def catPrintfBuffer (printfBuffer text : List Char) : Option (List Char) :=
  if printfBuffer.length + text.length + 1 ≤ printfBufferSize then some (printfBuffer ++ text) else none

/-- The loop over the bytes of a hexadecimal output. -/
def hexLoop : List Byte → List Char → Option (List Char)
  | [], printfBuffer => some printfBuffer
  | b :: buf, printfBuffer => (catPrintfBuffer printfBuffer (hexByte b)).bind (hexLoop buf)

/-- `my_printf`: what is printed, to the console when `cmd` is set and to the log otherwise. `buf` is what stands behind the pointer. -/
def myPrintf (buf : List Byte) (datalenth : Nat) (type : PrintType) (cmd : Bool) (function : List Char) :
    Option (List (Bool × List Char)) :=
  match type with
  | .hex =>
    if datalenth ≤ buf.length then
      (hexLoop (buf.take datalenth) []).map fun printfBuffer => [(cmd, function ++ printfBuffer ++ ['\n'])]
    else none
  | .char => some [(cmd, function ++ (buf.takeWhile (· ≠ 0)).map (fun b => Char.ofNat b.toNat) ++ ['\n'])]
  | .other => some []

end EnergyRouter
