import EnergyRouter.Objects
import EnergyRouter.Lib.CString

/-!
# Numbers on the screen

`LCD_Ltoa` prints a number into a buffer from its end down, and the screen of the meter draws four such texts. A width for which the
buffer has no room has no outcome in the model. Characters are unsigned on the processor.
-/

namespace EnergyRouter

open CString

variable {n : Nat}

/-- What the loop of `LCD_Ltoa` carries from one turn to the next: the quotient that is left, and the places counted so far. -/
structure LtoaState where
  tmp : BitVec 32
  index : Byte
  deriving DecidableEq, Repr

/-- `rem + '0'`. -/
def ltoaDigit (tmp : BitVec 32) : Char := Char.ofNat ((tmp % 10).toNat + '0'.toNat)

/-- A turn of the loop: the character that is stored. Places are counted only when there are decimals. -/
def ltoaTurn (dec : Byte) (s : LtoaState) : Char × LtoaState :=
  if dec ≠ 0 then
    let index := s.index + 1
    if index.toNat = dec.toNat + 1 then ('.', { s with index := index })
    else (ltoaDigit s.tmp, ⟨s.tmp / 10, index⟩)
  else (ltoaDigit s.tmp, { s with tmp := s.tmp / 10 })

/-- The loop. The pointer `s` stands at `buf + len`: both go down together. -/
def ltoaLoop (dec : Byte) : Nat → LtoaState → Vector Char n → Vector Char n
  | 0, _, buf => buf
  | len + 1, s, buf =>
    let (c, s) := ltoaTurn dec s
    ltoaLoop dec len s (buf.setIfInBounds len c)

/-- `LCD_Ltoa`. -/
def lcdLtoa (buf : Vector Char n) (i : BitVec 32) (len : Nat) (dec : Byte) : Option (Vector Char n) :=
  if len < n then some (ltoaLoop dec len ⟨i, 0⟩ (buf.setIfInBounds len '\x00')) else none

/-- A text that `set_font24` is given, with its place. -/
structure DrawnText where
  x : Nat
  y : Nat
  text : List Char
  deriving DecidableEq, Repr

/-- A number that is drawn by way of `s_cStrBuf`. -/
structure NumberCall where
  x : Nat
  y : Nat
  i : BitVec 32
  len : Nat
  dec : Byte
  deriving DecidableEq, Repr

/-- The numbers are printed and drawn one after the other in the same buffer. -/
def drawNumbers : List NumberCall → Vector Char 20 → Option (List DrawnText × Vector Char 20)
  | [], sCStrBuf => some ([], sCStrBuf)
  | c :: calls, sCStrBuf => do
    let sCStrBuf ← lcdLtoa sCStrBuf c.i c.len c.dec
    let (drawn, sCStrBuf') ← drawNumbers calls sCStrBuf
    some (⟨c.x, c.y, cString sCStrBuf.toList⟩ :: drawn, sCStrBuf')

/-- The numbers `LCD_UpdateScreen004` draws of what `cmMeter_get_data` has given. The voltage has one decimal less than is drawn. -/
def screen004Calls (stMeterAnalog : MeterAnalog) : List NumberCall :=
  [⟨120, 60, stMeterAnalog.ulMeterTotal, 8, 3⟩, ⟨120, 90, stMeterAnalog.ulVol * 10, 6, 2⟩, ⟨120, 120, stMeterAnalog.ulCur, 6, 2⟩,
    ⟨120, 150, stMeterAnalog.ulPwrFactor, 5, 3⟩]

/-- `LCD_UpdateScreen004`. -/
def lcdUpdateScreen004 (stMeterAnalog : MeterAnalog) (sCStrBuf : Vector Char 20) : Option (List DrawnText × Vector Char 20) :=
  drawNumbers (screen004Calls stMeterAnalog) sCStrBuf

end EnergyRouter
