import EnergyRouter.Fcs

/-!
# Seconds since the year 2000

`timebin2long` makes one number of a time in BCD: the days of the years and months before are looked up in tables, and the rest is
added in 32 bits. An index outside of a table has no outcome in the model.
-/

namespace EnergyRouter

/-- `gYearTable`. -/
def gYearTable : List (BitVec 32) := [
  0, 366, 731, 1096, 1461, 1827, 2192, 2557, 2922, 3288,
  3653, 4018, 4383, 4749, 5114, 5479, 5844, 6210, 6575, 6940,
  7305, 7671, 8036, 8401, 8766, 9132, 9497, 9862, 10227, 10593,
  10958, 11323, 11688, 12054, 12419, 12784, 13149, 13515, 13880, 14245,
  14610, 14976, 15341, 15706, 16071, 16437, 16802, 17167, 17532, 17898,
  18263, 18628, 18993, 19359, 19724, 20089, 20454, 20820, 21185, 21550,
  21915, 22281, 22646, 23011, 23376, 23742, 24107, 24472, 24837, 25203,
  25568, 25933, 26298, 26664, 27029, 27394, 27759, 28125, 28490, 28855,
  29220, 29586, 29951, 30316, 30681, 31047, 31412, 31777, 32142, 32508,
  32873, 33238, 33603, 33969, 34334, 34699, 35064, 35430, 35795, 36160]

/-- `gMonthTable1`, of the years without a leap day. -/
def gMonthTable1 : List (BitVec 32) := [0, 31, 59, 90, 120, 151, 181, 212, 243, 273, 304, 334]

/-- `gMonthTable2`, of the leap years. -/
def gMonthTable2 : List (BitVec 32) := [0, 31, 60, 91, 121, 152, 182, 213, 244, 274, 305, 335]

/-- A byte of the time, out of its two digits. -/
def timeDigits (b : Byte) : Byte := b / 16 * 10 + b % 16

/-- An entry of a table, cut to 16 bits. -/
def timeEntry (table : List (BitVec 32)) (i : Int) : Option (BitVec 32) :=
  if i < 0 then none else table[i.toNat]?.map fun days => (days.setWidth 16).setWidth 32

/-- `timebin2long`. The bytes are second, minute, hour, day, month and year. -/
def timebin2long (buf : Vector Byte 6) : Option (BitVec 32) := do
  let ch := timeDigits (buf.getD 5 0)
  let tlong ← timeEntry gYearTable ch.toNat
  let ch1 := timeDigits (buf.getD 4 0)
  let month ← timeEntry (if ch % 4 = 0 then gMonthTable2 else gMonthTable1) ((ch1.toNat : Int) - 1)
  let tlong := tlong + month
  let ch := timeDigits (buf.getD 3 0)
  let tlong := tlong + (ch - 1).setWidth 32
  let tlong := tlong * 24
  let ch := timeDigits (buf.getD 2 0)
  let tlong := tlong + ch.setWidth 32
  let tlong := tlong * 60
  let ch := timeDigits (buf.getD 1 0)
  let tlong := tlong + ch.setWidth 32
  let tlong := tlong * 60
  let ch := timeDigits (buf.getD 0 0)
  some (tlong + ch.setWidth 32)

end EnergyRouter
