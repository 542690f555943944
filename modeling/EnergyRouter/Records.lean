import EnergyRouter.MeterFiles

/-!
# The event records

One file for each record, named by the record's number and its first time. A record is read by how recent it is: `Find_path_file`
sorts the names and first deletes the files that are too many. The directory is there, and opening, reading and deleting do not
fail; a store outside of an array has no outcome.
-/

namespace EnergyRouter

open Numeral CString Memory

section Directories

/-- The files of a directory by their names, in the order `readdir` gives them. -/
abbrev Dir := List (List Char × List Char)

/-- The path of a file in a directory. -/
def inPath (path name : List Char) : List Char := path ++ '/' :: name

/-- `open` of a path in the directory: the content of the file. -/
def Dir.openFile (dir : Dir) (path pathFile : List Char) : File := (dir.find? fun e => inPath path e.1 = pathFile).map Prod.snd

/-- What a directory holds when a file has got a content: a file that was not there comes in at some place. -/
def Dir.put (dir : Dir) (place : Nat) (name content : List Char) : Dir :=
  if name ∈ dir.map Prod.fst then dir.map fun e => if e.1 = name then (name, content) else e
  else dir.take place ++ (name, content) :: dir.drop place

/-- The loop of `Catalogue_Del_Oldest`: the least name, by way of `oldest_file[22]`. -/
def oldestFile : List Char → List (List Char) → Option (List Char)
  | oldest, [] => some oldest
  | oldest, name :: names =>
    if 0 < strcmp oldest name then if name.length < 22 then oldestFile name names else none
    else oldestFile oldest names

/-- `Catalogue_Del_Oldest`: the least name below the greatest is deleted. The path is put together in `oldest_path_file[49]`. -/
def catalogueDelOldest (path : List Char) (dir : Dir) : Option Dir := do
  let oldest ← oldestFile (ascii "9999-991231080808.TXT") (dir.map Prod.fst)
  if (inPath path oldest).length < 49 then some (dir.filter fun e => e.1 ≠ oldest) else none

/-- It is called once for every file that is too many. -/
def delOldest (path : List Char) : Nat → Dir → Option Dir
  | 0, dir => some dir
  | i + 1, dir => do
    let dir ← catalogueDelOldest path dir
    delOldest path i dir

/-- `MAX_History_num_10`. -/
def maxHistoryNum10 : Nat := 10

/-- The files that are too many are deleted before the names are read. -/
def pruneHistory (path : List Char) (dir : Dir) : Option Dir :=
  if maxHistoryNum10 < dir.length then delOldest path (dir.length - maxHistoryNum10) dir else some dir

/-- The inner loop of the sort: the greater of two neighbours goes before the smaller one by way of `temp_file[22]`. -/
def sortPass : Nat → List (List Char) → Option (List (List Char))
  | j + 1, a :: b :: rows =>
    if strcmp a b < 0 then if b.length < 22 then (sortPass j (a :: rows)).map (b :: ·) else none
    else (sortPass j (b :: rows)).map (a :: ·)
  | _, rows => some rows

/-- The sort of `history_record`. -/
def sortHistory (rows : List (List Char)) : Option (List (List Char)) :=
  (List.range (rows.length - 1)).foldlM (fun rows i => sortPass (rows.length - i - 1) rows) rows

/-- What `Find_path_file` returns: its result, the path, the number of files, and the directory it leaves. -/
structure Found where
  result : Int
  pathfile : List Char
  filenum : Nat
  dir : Dir
  deriving DecidableEq, Repr

/-- `Find_path_file`: the path of the file with the given number, counted from the greatest name. The names are copied to
`history_record[10][24]`; more than ten are stopped by an assertion, and without any the sort runs over the array. The path goes to
`path_file[64]` of the caller. -/
def findPathFile (path : List Char) (number : Nat) (dir : Dir) : Option Found := do
  let dir ← pruneHistory path dir
  let names := dir.map Prod.fst
  if (∀ name ∈ names.take maxHistoryNum10, name.length < 24) ∧ names.length ≤ maxHistoryNum10 ∧ names ≠ [] ∧
      number < maxHistoryNum10 then do
    let rows ← sortHistory names
    let pathfile := inPath path (rows.getD number [])
    if pathfile.length < 64 then some ⟨0, pathfile, names.length, dir⟩ else none
  else none

end Directories

section Storage

variable {n : Nat}

/-- How many bytes can be stored from `path[18]` and from `buffer[48]` on before other data is hit. -/
structure Room where
  path : Nat
  buffer : Nat
  deriving DecidableEq, Repr

/-- A kind of record. The writer fills `buffer` with one text after the other and appends some of them to `Para_Buff`. -/
structure EventStore (n : Nat) where
  lines : SystemTime → Vector Byte n → List (List Char × Bool)
  fields : List (Field (Vector Byte n))

/-- The number of a record. -/
def orderNum (m : Vector Byte n) : BitVec 32 := wordAt m 0

/-- The name of the file of a record: its number and its first time. -/
def recordName (m : Vector Byte n) : List Char :=
  decimalPad 4 (orderNum m).toNat ++ '-' :: (timeBytes m 4).flatMap hexByte ++ ascii ".txt"

/-- The text of a record. -/
def EventStore.text (st : EventStore n) (clock : SystemTime) (m : Vector Byte n) : List Char :=
  ((st.lines clock m).filter Prod.snd).flatMap Prod.fst

/-- Writing a record. `path_file` has 64 bytes. -/
def EventStore.write (st : EventStore n) (room : Room) (path : List Char) (place : Nat) (clock : SystemTime) (m : Vector Byte n)
    (dir : Dir) : Option (Int × Dir) :=
  if (recordName m).length + 1 < room.path ∧ (inPath path (recordName m)).length < 64 ∧
      ∀ l ∈ st.lines clock m, l.1.length < room.buffer then do
    let (result, file) ← (dir.openFile path (inPath path (recordName m))).save (st.text clock m)
    some (result, dir.put place (recordName m) (file.getD []))
  else none

/-- Reading the record with a number: what is returned, the caller's record, and the directory. -/
def EventStore.read (st : EventStore n) (path : List Char) (number : Nat) (m : Vector Byte n) (dir : Dir) :
    Option (Int × Vector Byte n × Dir) := do
  let found ← findPathFile path number dir
  match found.dir.openFile path found.pathfile with
  | none => some (-2, m, found.dir)
  | some content =>
    if content.length = 0 then some (-3, m, found.dir)
    else do
      let buff ← readBuff content
      let (_, m) ← readFields st.fields buff m
      some (0, m, found.dir)

end Storage

section Stores

variable {n : Nat}

/-- A text that is appended to `Para_Buff`. -/
def appended (text : List Char) : List Char × Bool := (text, true)

/-- A text that `buffer` holds until it is overwritten by the next one. -/
def discarded (text : List Char) : List Char × Bool := (text, false)

/-- A word with `%0wu`. -/
def wordLine (name : String) (w : Nat) (m : Vector Byte n) (off : Nat) : List Char :=
  line (ascii name) (decimalPad w (wordAt m off).toNat)

/-- A byte with `%0wu`. -/
def byteLine (name : String) (w : Nat) (m : Vector Byte n) (off : Nat) : List Char :=
  line (ascii name) (decimalPad w (byteAt m off).toNat)

/-- The six values of a time. -/
def timestampLine (name : String) (m : Vector Byte n) (off : Nat) : List Char :=
  line (ascii name) ((timeBytes m off).flatMap hexByte)

/-- The bytes of an array. -/
def arrayLine (name : String) (m : Vector Byte n) (off len : Nat) : List Char :=
  line (ascii name) ((bytesAt m off len).flatMap hexByte)

/-- `get_pvalue` of one value, at an offset of the record. -/
def wordField (name : String) (off : Nat) : Field (Vector Byte n) := .word (ascii name) (storeWord off)

/-- `get_pvalue` of `cnt` values, at an offset of the record. -/
def bytesField (name : String) (cnt off : Nat) : Field (Vector Byte n) := .bytes (ascii name) cnt (storeBytes off)

/-- `CHARGE_RECORD_PATH`. -/
def chargeRecordPath : List Char := ascii "/ChargeRecord"

/-- `CHG_ORDER_EVENT` and `Charge_Record_Storage`. The request's number, the user, the asset and the two times of the charge are not
appended. -/
def chargeRecordStorage : EventStore 180 where
  lines clock m :=
    [appended (timeLine clock), appended (wordLine "OrderNum" 4 m 0), appended (timestampLine "StartTimestamp" m 4),
      appended (timestampLine "FinishTimestamp" m 11), appended (byteLine "Reason" 3 m 18), appended (byteLine "ChannelState" 3 m 19),
      discarded (arrayLine "RequestNO" m 20 17), discarded (arrayLine "cUserID" m 37 65), discarded (arrayLine "AssetNO" m 102 23),
      appended (wordLine "ChargeReqEle" 8 m 128), appended (timestampLine "RequestTimeStamp" m 132),
      appended (timestampLine "PlanUnChg_TimeStamp" m 139), appended (byteLine "ChargeMode" 8 m 146),
      appended (wordLine "StartMeterValue" 8 m 148), appended (wordLine "StopMeterValue" 8 m 152),
      discarded (timestampLine "ChgStartTime" m 156), discarded (timestampLine "ChgStopTime" m 163),
      appended (wordLine "ucChargeEle" 8 m 172), appended (wordLine "ucChargeTime" 8 m 176)]
  fields :=
    [wordField "OrderNum" 0, bytesField "StartTimestamp" 6 4, bytesField "FinishTimestamp" 6 11, wordField "Reason" 18,
      wordField "ChannelState" 19, bytesField "RequestNO" 17 20, bytesField "cUserID" 65 37, bytesField "AssetNO" 23 102,
      wordField "ChargeReqEle" 128, bytesField "RequestTimeStamp" 6 132, bytesField "PlanUnChg_TimeStamp" 6 139,
      wordField "ChargeMode" 146, wordField "StartMeterValue" 148, wordField "StopMeterValue" 152,
      bytesField "ChgStartTime" 6 156, bytesField "ChgStopTime" 6 163, wordField "ucChargeEle" 172, wordField "ucChargeTime" 176]

/-- `ORDER_CHG_EVENT` and `Order_Charge_Storage`. The states of the faults are not appended. -/
def orderChargeStorage : EventStore 56 where
  lines clock m :=
    [appended (timeLine clock), appended (wordLine "OrderNum" 4 m 0), appended (timestampLine "StartTimestamp" m 4),
      appended (timestampLine "FinishTimestamp" m 11), appended (byteLine "Reason" 3 m 18), appended (byteLine "ChannelState" 3 m 19),
      appended (wordLine "TotalFault" 8 m 20), discarded (arrayLine "Fau" m 24 32)]
  fields :=
    [wordField "OrderNum" 0, bytesField "StartTimestamp" 6 4, bytesField "FinishTimestamp" 6 11, wordField "Reason" 18,
      wordField "ChannelState" 19, wordField "TotalFault" 20, bytesField "Fau" 32 24]

/-- `PLAN_FAIL_EVENT` and `Plan_Fail_Storage`. The request's number, the asset and the data are not appended. -/
def planFailStorage : EventStore 96 where
  lines clock m :=
    [appended (timeLine clock), appended (wordLine "OrderNum" 4 m 0), appended (timestampLine "StartTimestamp" m 4),
      appended (timestampLine "FinishTimestamp" m 11), appended (byteLine "Reason" 3 m 18), appended (byteLine "ChannelState" 3 m 19),
      discarded (arrayLine "RequestNO" m 20 17), discarded (arrayLine "AssetNO" m 37 23), discarded (arrayLine "Data" m 60 33)]
  fields :=
    [wordField "OrderNum" 0, bytesField "StartTimestamp" 6 4, bytesField "FinishTimestamp" 6 11, wordField "Reason" 18,
      wordField "ChannelState" 19, bytesField "RequestNO" 17 20, bytesField "AssetNO" 23 37, bytesField "Data" 33 60]

/-- `ONLINE_STATE` and `Online_State_Storage`. Both times written are that of going offline, under names the reader does not look
for. -/
def onlineStateStorage : EventStore 24 where
  lines clock m :=
    [appended (timeLine clock), appended (wordLine "OrderNum" 4 m 0), appended (timestampLine "StartTimestamp" m 11),
      appended (timestampLine "FinishTimestamp" m 11), appended (byteLine "ChannelState" 3 m 18),
      appended (byteLine "AutualState" 3 m 19), appended (byteLine "OfflineReason" 3 m 20)]
  fields :=
    [wordField "OrderNum" 0, bytesField "OnlineTimestamp" 6 4, bytesField "OfflineTimestamp" 6 11, wordField "ChannelState" 18,
      wordField "AutualState" 19, wordField "OfflineReason" 20]

end Stores

end EnergyRouter
