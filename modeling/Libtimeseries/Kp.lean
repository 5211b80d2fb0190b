import Libtimeseries.Base.Bytes

/-!
# Key packages (`timeseries_kp.c`)

The key package is the write buffer of the library: an array of key infos, a
hash from key strings to array indices, a counter of the enabled keys, and a
`dirty` bit telling the next flush that keys were added.

Modelling choices:

- ids and counters (`int`, `uint32_t`) are `Nat`;
- a key info's `key` is the raw `char` array, because the Kafka backend writes
  into it; strings handed to the library are `CString`s;
- the khash map stores *pointers* to key strings. An entry is a pair of the
  index of the key info that owns the string and the stored id, and lookups
  compare the present contents of the owner's string;
- a `backend_state` slot is a pointer; only DBATS stores anything there, a
  `uint32_t` id;
- `realloc`, `strdup` and `kh_put` may fail (`AllocResult`).
-/

namespace Libtimeseries

open ByteLib

/-- Why a call does not return to its caller. -/
inductive Stop where
  /-- an `assert` failed -/
  | assertFailed
  /-- a NULL pointer was dereferenced -/
  | nullDeref
  /-- an array was written behind its end -/
  | overflow
  /-- a loop never ends -/
  | noReturn
  /-- a number was divided by zero -/
  | divByZero
  /-- a pointer that points nowhere was followed or freed -/
  | badPointer
deriving DecidableEq, Repr

/-- The outcome of a C function that returns `0` on success: the process stops,
or the function returns `0` (`ok`) or another value (`fail`). -/
inductive Ret where
  | ok
  | fail
  | stop (why : Stop)
deriving DecidableEq, Repr

/-- `timeseries_backend_id_t`. -/
inductive BackendId where
  | ascii
  | dbats
  | kafka
deriving DecidableEq, Repr

/-- The order of `TIMESERIES_FOREACH_BACKEND_ID`. -/
def BackendId.all : List BackendId := [.ascii, .dbats, .kafka]

theorem BackendId.mem_all (id : BackendId) : id ∈ BackendId.all := by
  cases id <;> decide

/-- `struct timeseries_kp_ki`. -/
structure Ki where
  /-- Key string -/
  key : Bytes
  /-- Value -/
  value : UInt64
  /-- Backend-specific state: `NULL`, or a pointer to an id -/
  backendState : BackendId → Option UInt32
  /-- Should this KI be skipped? -/
  disabled : Bool

/-- `struct timeseries_kp`. -/
structure Kp where
  /-- Dynamically allocated array of Key Info objects -/
  keyInfos : List Ki
  /-- Hash of key names -> key ids, as (owner of the string, id) -/
  keyIdHash : List (Nat × Nat)
  /-- Number of keys in the Key Package -/
  keyInfosCnt : Nat
  /-- Number of enabled keys in the Key Package -/
  keyInfosEnabledCnt : Nat
  /-- Should the values be explicitly reset after a flush? -/
  reset : Bool
  /-- Should the keys be disabled after a flush? -/
  disable : Bool
  /-- Have keys been added since the last call to `kp_ki_update`? -/
  dirty : Bool

/-! ## The string hash -/

/-- `kh_get(strint, h, key)`: the id stored under a string, given the strings
the entries point to. -/
def khGet (names : List Bytes) (h : List (Nat × Nat)) (key : Bytes) : Option Nat :=
  (h.find? fun e => names[e.1]? == some key).map Prod.snd

/-- `kh_put(strint, h, key)` with the string of `owner`, then `kh_val(..) = id`:
an entry with an equal string keeps its own string pointer. -/
def khPut (names : List Bytes) (h : List (Nat × Nat)) (owner id : Nat) : List (Nat × Nat) :=
  if h.any fun e => names[e.1]? == names[owner]? then
    h.map fun e => if names[e.1]? == names[owner]? then (e.1, id) else e
  else
    h ++ [(owner, id)]

/-! ## Key infos -/

/-- Which of the allocations of `timeseries_kp_add_key` succeed. -/
structure AllocResult where
  realloc : Bool
  strdup : Bool
  khPut : Bool

/-- Every allocation succeeds. -/
def AllocResult.success : AllocResult := ⟨true, true, true⟩

namespace Ki

/-- `kp_ki_init`, when `strdup` succeeds. -/
def init (key : CString) : Ki where
  key := key.bytes
  value := 0
  backendState := fun _ => none
  disabled := false

/-- `kp_ki_set` -/
def set (ki : Ki) (value : UInt64) : Ki := { ki with value := value }

/-- Assignment to the `disabled` field. -/
def setDisabled (ki : Ki) (disabled : Bool) : Ki := { ki with disabled := disabled }

/-- `timeseries_kp_ki_set_backend_state` -/
def setBackendState (ki : Ki) (id : BackendId) (state : Option UInt32) : Ki :=
  { ki with backendState := fun id' => if id' = id then state else ki.backendState id' }

/-- The key string as C code reads it. -/
def name (ki : Ki) : Bytes := cstr ki.key

/-- What the loop of `kp_reset_disable` makes of a key info. -/
def afterFlush (reset disable : Bool) (ki : Ki) : Ki where
  key := ki.key
  value := if reset then 0 else ki.value
  backendState := ki.backendState
  disabled := ki.disabled || disable

/-- A key info without its backend states: what the key package itself owns. -/
def erase (ki : Ki) : Ki := { ki with backendState := fun _ => none }

end Ki

namespace Kp

/-- `timeseries_kp_init`: `TIMESERIES_KP_RESET` is bit 0 of the flags and
`TIMESERIES_KP_DISABLE` bit 1. -/
def init (flags : Nat) : Kp where
  keyInfos := []
  keyIdHash := []
  keyInfosCnt := 0
  keyInfosEnabledCnt := 0
  reset := flags.testBit 0
  disable := flags.testBit 1
  dirty := false

/-- `timeseries_kp_size` -/
def size (kp : Kp) : Nat := kp.keyInfosCnt

/-- `timeseries_kp_enabled_size` -/
def enabledSize (kp : Kp) : Nat := kp.keyInfosEnabledCnt

/-- The strings the hash entries point into. -/
def names (kp : Kp) : List Bytes := kp.keyInfos.map Ki.name

/-- `timeseries_kp_get_key` -/
def getKey (kp : Kp) (key : CString) : Int :=
  match khGet kp.names kp.keyIdHash key.bytes with
  | none => -1
  | some id => id

/-- `timeseries_kp_get_key_name` -/
def getKeyName (kp : Kp) (id : Nat) : Option Bytes :=
  if kp.keyInfosCnt ≤ id then none else (kp.keyInfos[id]?).map Ki.name

/-- `timeseries_kp_add_key`: the id of the new key and the new package. A failed
`realloc` leaves `key_infos` NULL. -/
def addKey (al : AllocResult) (kp : Kp) (key : CString) : Int × Kp :=
  let thisId := kp.keyInfosCnt
  if !al.realloc then
    (-1, { kp with keyInfos := [] })
  else if !al.strdup then
    (-1, kp)
  else
    let keyInfos := kp.keyInfos ++ [Ki.init key]
    -- on failure the new slot stays behind the counted ones, where nothing looks
    if !al.khPut then
      (-1, kp)
    else
      (thisId,
        { kp with
          keyInfos := keyInfos
          keyIdHash := Libtimeseries.khPut (keyInfos.map Ki.name) kp.keyIdHash thisId thisId
          keyInfosCnt := kp.keyInfosCnt + 1
          keyInfosEnabledCnt := kp.keyInfosEnabledCnt + 1
          dirty := true })

/-- Update the key info at an index. -/
def modifyKi (kp : Kp) (id : Nat) (f : Ki → Ki) : Kp :=
  { kp with keyInfos := kp.keyInfos.modify id f }

/-- Is the key at this index present and not disabled? -/
def isEnabled (kp : Kp) (id : Nat) : Bool :=
  (kp.keyInfos[id]?).any fun ki => !ki.disabled

/-- Is the key at this index present and disabled? -/
def isDisabled (kp : Kp) (id : Nat) : Bool :=
  (kp.keyInfos[id]?).any fun ki => ki.disabled

/-- `timeseries_kp_disable_key` -/
def disableKey (kp : Kp) (id : Nat) : Kp :=
  if kp.isEnabled id then
    { kp.modifyKi id (·.setDisabled true) with
      keyInfosEnabledCnt := kp.keyInfosEnabledCnt - 1 }
  else
    kp

/-- `timeseries_kp_enable_key` -/
def enableKey (kp : Kp) (id : Nat) : Kp :=
  if kp.isDisabled id then
    { kp.modifyKi id (·.setDisabled false) with
      keyInfosEnabledCnt := kp.keyInfosEnabledCnt + 1 }
  else
    kp

/-- `timeseries_kp_get` (of an existing key) -/
def get (kp : Kp) (id : Nat) : UInt64 :=
  ((kp.keyInfos[id]?).map Ki.value).getD 0

/-- `timeseries_kp_set`: asserts that the id is in range. -/
def set (kp : Kp) (id : Nat) (value : UInt64) : Ret × Kp :=
  if id < kp.keyInfosCnt then
    (.ok, kp.modifyKi id (·.set value))
  else
    (.stop .assertFailed, kp)

/-- One round of the loop of `kp_reset_disable`. -/
def resetDisableKey (kp : Kp) (id : Nat) : Kp :=
  let kp := if kp.reset then kp.modifyKi id (·.set 0) else kp
  if kp.disable then kp.disableKey id else kp

/-- `kp_reset_disable` -/
def resetDisable (kp : Kp) : Kp :=
  if !kp.reset && !kp.disable then
    kp
  else
    (List.range kp.keyInfosCnt).foldl resetDisableKey kp

/-- The enabled key infos, in index order: what a backend's flush visits. -/
def enabledKis (kp : Kp) : List Ki := kp.keyInfos.filter fun ki => !ki.disabled

/-- The (key, value) pairs a flush writes. -/
def enabledPairs (kp : Kp) : List (Bytes × UInt64) :=
  kp.enabledKis.map fun ki => (ki.name, ki.value)

/-- The package without its backend states. -/
def erase (kp : Kp) : Kp := { kp with keyInfos := kp.keyInfos.map Ki.erase }

end Kp

end Libtimeseries
