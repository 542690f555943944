import EnergyRouter.Meter
import EnergyRouter.Lib.Numeral
import EnergyRouter.Lib.CString
import EnergyRouter.Lib.Memory

/-!
# The text of the stored files

The storage files are lines `name=value`: `get_name` takes the next name and `get_pvalue` the value behind it. A text is the list of
its characters up to the terminator. A store outside of an array has no outcome in the model.
-/

namespace EnergyRouter

open Numeral CString

section Writing

/-- The characters of a literal. It is not unfolded: nothing is known of a name but what can be computed from it. -/
@[irreducible] def ascii (literal : String) : List Char := literal.toList

/-- `%02X` of a byte. -/
def hexByte (b : Byte) : List Char := hexPad 2 b.toNat

/-- A line of a file. -/
def line (name value : List Char) : List Char := name ++ '=' :: value ++ ['\n']

/-- The name of an element of an array, `%s[%u]`. -/
def indexed (name : List Char) (i : Nat) : List Char := name ++ '[' :: decimalPad 0 i ++ [']']

/-- The first line of every file: the time it was written at. -/
def timeLine (clock : SystemTime) : List Char :=
  ascii "Time=" ++ hexByte clock.year ++ '-' :: hexByte clock.month ++ '-' :: hexByte clock.day ++ '-' :: hexByte clock.hour ++
    '-' :: hexByte clock.minute ++ '-' :: hexByte clock.second ++ ['\n']

end Writing

section Numbers

/-- `pow_df`. -/
def powDf (m : BitVec 32) : Nat → BitVec 32
  | 0 => 1
  | n + 1 => powDf m n * m

/-- What a character counts for; the code takes whatever is no digit for a letter. -/
def charValue (c : Char) : BitVec 32 := if c.isDigit then BitVec.ofNat 32 c.toNat - 48 else BitVec.ofNat 32 c.toNat - 65 + 10

/-- The first pass of `str2num`: the number of characters, which is a byte, and the base; nothing for a character that is none
of a number. -/
def str2numPass : List Char → Nat → Nat → Option (Nat × Nat)
  | [], bnum, hexdec => some (bnum, hexdec)
  | c :: p, bnum, hexdec =>
    if IsHex c ∨ (c = 'X' ∧ bnum = 1) then str2numPass p ((bnum + 1) % 256) (if 'A' ≤ c then 16 else hexdec) else none

/-- The second pass: every character times the power of its place. -/
def str2numSum (hexdec : Nat) : List Char → Nat → BitVec 32 → BitVec 32
  | [], _, dest => dest
  | c :: p, bnum, dest => str2numSum hexdec p (bnum - 1) (dest + charValue c * powDf (BitVec.ofNat 32 hexdec) (bnum - 1))

/-- `str2num`: the code it returns and what it leaves in `dest`. -/
def str2num (src : List Char) : Nat × BitVec 32 :=
  match str2numPass src 0 10 with
  | none => (1, 0)
  | some (bnum, hexdec) =>
    if hexdec = 16 then
      if bnum < 3 then (2, 0)
      else if src[0]? = some '0' ∧ (src[1]? = some 'X' ∨ src[1]? = some 'x') then
        (0, str2numSum hexdec (src.drop 2) (bnum - 2) 0)
      else (3, 0)
    else if bnum = 0 then (4, 0)
    else (0, str2numSum hexdec src bnum 0)

/-- The second pass of `str2nnum`. It takes the first character before it looks for the terminator, and goes on behind the string
when it was that. -/
def str2nnumSum : List Char → Nat → Byte → Option Byte
  | [], _, _ => none
  | [_], _, _ => none
  | c :: next :: p, bnum, dest =>
    let dest := dest + (charValue c * powDf 16 (bnum - 1)).setWidth 8
    if next = '\x00' then some dest else str2nnumSum (next :: p) (bnum - 1) dest

/-- `str2nnum`: the code and the byte, always in base sixteen. The list is the memory from `src` on. -/
def str2nnum (src : List Char) : Option (Nat × Byte) :=
  match str2numPass (cString src) 0 10 with
  | none => some (1, 0)
  | some (bnum, _) => (str2nnumSum src bnum 0).map fun dest => (0, dest)

end Numbers

section Scanning

/-- The end of a line. -/
def isLineEnd (c : Char) : Bool := c = '\r' || c = '\n'

/-- The characters no name has. -/
def isSeparator (c : Char) : Bool := c = ' ' || c = '=' || c = '\r' || c = '\n' || c = '/'

/-- `get_name`: the rest of the line and what separates names is skipped, then at most 50 characters are taken. Every caller passes
`fpname[32]`. -/
def getName (strtemp : List Char) : Option (List Char × List Char) :=
  let strtemp := (strtemp.dropWhile (!isLineEnd ·)).dropWhile isSeparator
  let fpname := (strtemp.takeWhile (!isSeparator ·)).take 50
  if fpname.length < 32 then some (fpname, strtemp.drop fpname.length) else none

/-- The loop of `get_pvalue`: the digits up to the first other character. Only the decimal digits are counted against
`valueArry[48]`. -/
def scanValue : List Char → List Char → Option (List Char × List Char)
  | valueArry, [] => some (valueArry, [])
  | valueArry, c :: strtemp =>
    if (c.isDigit ∧ valueArry.length < 48) ∨ ('A' ≤ c ∧ c ≤ 'F') then
      if valueArry.length < 48 then scanValue (valueArry ++ [c]) strtemp else none
    else if valueArry ≠ [] then some (valueArry, c :: strtemp)
    else scanValue valueArry strtemp

/-- The digits with their terminator, which takes a place of `valueArry` too. -/
def getValueArry (strtemp : List Char) : Option (List Char × List Char) := do
  let (valueArry, strtemp) ← scanValue [] strtemp
  if valueArry.length < 48 then some (valueArry, strtemp) else none

/-- `get_pvalue` of one value: the word it stores, and where it stopped. -/
def getWord (strtemp : List Char) : Option (BitVec 32 × List Char) := do
  let (valueArry, strtemp) ← getValueArry strtemp
  some ((str2num valueArry).2, strtemp)

/-- The pairs of `valueArry[48]` as bytes. A pair outside of `valueArry` has no outcome; `arryadd[72]` has room for as many pairs.
-/
def pairBytes : Nat → List Char → Option (List Byte)
  | 0, _ => some []
  | cnt + 1, a :: b :: valueArry => do
    let (_, value) ← str2nnum [a, b, '\x00']
    let values ← pairBytes cnt valueArry
    some (value :: values)
  | _ + 1, _ => none

/-- `get_pvalue` of `cnt` values: the bytes it stores. -/
def getBytes (cnt : Nat) (strtemp : List Char) : Option (List Byte × List Char) := do
  let (valueArry, strtemp) ← getValueArry strtemp
  let values ← pairBytes cnt (valueArry.rightpad 48 '\x00')
  some (values, strtemp)

/-- `get_pvalue`: the bytes it stores from its destination on, and where it stopped. One value is a word. -/
def getPvalue (cnt : Nat) (strtemp : List Char) : Option (List Byte × List Char) :=
  if cnt = 1 then do
    let (value, strtemp) ← getWord strtemp
    some (Memory.wordBytes value, strtemp)
  else getBytes cnt strtemp

end Scanning

section Reading

variable {σ : Type}

/-- A value a reader expects: its name, and where it goes. One that goes outside of the record has no outcome when it is there. -/
inductive Field (σ : Type) where
  | word (name : List Char) (store : BitVec 32 → σ → σ)
  | bytes (name : List Char) (cnt : Nat) (store : List Byte → σ → σ)
  | outside (name : List Char)

def Field.name : Field σ → List Char
  | .word name _ => name
  | .bytes name _ _ => name
  | .outside name => name

/-- `get_pvalue` at the address of the field. -/
def Field.getPvalue : Field σ → List Char → σ → Option (List Char × σ)
  | .word _ store, fpoint, s => (getWord fpoint).map fun (value, fpoint) => (fpoint, store value s)
  | .bytes _ cnt store, fpoint, s => (getBytes cnt fpoint).map fun (values, fpoint) => (fpoint, store values s)
  | .outside _, _, _ => none

/-- One step of a reader: the next name of the text is taken, and its value only when it is the name expected. -/
def readField (f : Field σ) (fpoint : List Char) (s : σ) : Option (List Char × σ) := do
  let (fpname, fpoint) ← getName fpoint
  if fpname = f.name then f.getPvalue fpoint s else some (fpoint, s)

/-- A reader goes through its fields once. -/
def readFields : List (Field σ) → List Char → σ → Option (List Char × σ)
  | [], fpoint, s => some (fpoint, s)
  | f :: fields, fpoint, s => do
    let (fpoint, s) ← readField f fpoint s
    readFields fields fpoint s

end Reading

section Files

/-- A file, or nothing where there is none. -/
abbrev File := Option (List Char)

/-- The size of `Para_Buff`, `MAX_MALLOC_NUM`. -/
def maxMallocNum : Nat := 2048

/-- `write` at a position of the file: what the text does not reach stays. -/
def spliceAt (content : List Char) (pos : Nat) (text : List Char) : List Char :=
  content.take pos ++ text ++ content.drop (pos + text.length)

/-- `open` with `O_CREAT` and `write` of `Para_Buff` from the start of the file, which is not truncated. A text that does not fit
has run over the buffer. -/
def File.save (file : File) (text : List Char) : Option (Int × File) :=
  if text.length < maxMallocNum then some (0, some (spliceAt (file.getD []) 0 text)) else none

/-- `read` into `Para_Buff`, with the terminator the readers append behind what they got. -/
def readBuff (content : List Char) : Option (List Char) :=
  let buff := content.take maxMallocNum
  if buff.length < maxMallocNum then some (cString buff) else none

end Files

end EnergyRouter
