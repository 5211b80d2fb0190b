import Libtimeseries.Ascii

/-!
# The ASCII write paths

The ASCII backend prints a line for a value whichever way it is told: through a key
package, by key, by resolved id, or in a bulk set. The id of a key is the key
itself, with its terminator. A bulk set carries its time in the backend, together
with the number of values announced and received; the last value clears them.

`resolve_key` fails if `strdup` does. The loop over the keys has an `int` index and a
`uint32_t` bound; the index is unbounded here.
-/

namespace Libtimeseries

open ByteLib

namespace Ascii

/-- The state with the fields of the current bulk set. -/
structure BulkState extends State where
  /-- The number of values received for the current bulk set -/
  bulkCnt : UInt32
  /-- The time for the current bulk set -/
  bulkTime : UInt32
  /-- The expected number of values in the current bulk set -/
  bulkExpect : UInt32

/-! ## Writing by id -/

/-- `timeseries_backend_ascii_resolve_key`: the copy that `strdup` makes. Its length is
`strlen(key) + 1`. -/
def resolveKey (strdup : Bool) (key : CString) : Option Bytes :=
  if strdup then some (key.bytes ++ [0]) else none

/-- `timeseries_backend_ascii_resolve_key_bulk`, with what becomes of each `strdup`. -/
def resolveKeyBulk : List CString → List Bool → Option (List Bytes)
  | [], _ => some []
  | key :: keys, strdups =>
    match resolveKey (strdups.headD true) key with
    | none => none
    | some id => (resolveKeyBulk keys strdups.tail).map (id :: ·)

/-- `timeseries_backend_ascii_set_single_by_id`: the id is read as a string. -/
def setSingleById (s : State) (id : Bytes) (value : UInt64) (time : UInt32) : Ret × State :=
  setSingle s (CString.ofBytes id) value time

/-- `timeseries_backend_ascii_set_bulk_init` -/
def setBulkInit (s : BulkState) (keyCnt time : UInt32) : Ret × BulkState :=
  if s.bulkExpect = 0 ∧ s.bulkCnt = 0 then
    (.ok, { s with bulkExpect := keyCnt, bulkTime := time })
  else
    (.stop .assertFailed, s)

/-- `timeseries_backend_ascii_set_bulk_by_id` -/
def setBulkById (s : BulkState) (id : Bytes) (value : UInt64) : Ret × BulkState :=
  if 0 < s.bulkExpect then
    match setSingleById s.toState id value s.bulkTime with
    | (.ok, st) =>
      let s := { s with toState := st, bulkCnt := s.bulkCnt + 1 }
      if s.bulkCnt = s.bulkExpect then
        (.ok, { s with bulkCnt := 0, bulkTime := 0, bulkExpect := 0 })
      else
        (.ok, s)
    | (r, st) => (r, { s with toState := st })
  else
    (.stop .assertFailed, s)

/-- The id of a key is read back as the key. -/
theorem ofBytes_resolved (key : CString) : CString.ofBytes (key.bytes ++ [0]) = key := by
  refine CString.ext_iff'.mpr ?_
  show cstr (key.bytes ++ [0]) = key.bytes
  unfold cstr
  rw [List.takeWhile_append_of_pos]
  · exact List.append_nil _
  · intro b hb
    simpa using fun hb0 : b = 0 => key.nulFree (hb0 ▸ hb)

/-- Ids that were resolved are the keys with their terminators. -/
theorem resolveKeyBulk_eq {keys : List CString} {strdups : List Bool} {ids : List Bytes}
    (h : resolveKeyBulk keys strdups = some ids) : ids = keys.map fun key => key.bytes ++ [0] := by
  induction keys generalizing strdups ids with
  | nil => exact (Option.some.inj h).symm
  | cons key keys ih =>
    rw [resolveKeyBulk, resolveKey] at h
    cases hstrdup : strdups.headD true with
    | false =>
      rw [hstrdup] at h
      cases h
    | true =>
      rw [hstrdup] at h
      obtain ⟨ids', hids, rfl⟩ := Option.map_eq_some_iff.mp h
      rw [List.map_cons, ih hids]

/-! ## The four paths -/

/-- Some pairs that are to be written at some time, and their number as it is
announced. -/
structure Batch where
  pairs : List (CString × UInt64)
  keyCnt : UInt32
  time : UInt32
  count : pairs.length = keyCnt.toNat
  nonempty : 0 < keyCnt

/-- The lines for some pairs. -/
def lines (pairs : List (CString × UInt64)) (time : UInt32) : Bytes :=
  pairs.flatMap fun r => metricLine r.1.bytes r.2 time

/-- Print some bytes. -/
def State.print (s : State) (bs : Bytes) : State := { s with output := s.output ++ bs }

/-- Calls one after the other, up to the first that does not succeed. -/
def callAll {σ α : Type} (call : α → σ → Ret × σ) : List α → σ → Ret × σ
  | [], s => (.ok, s)
  | a :: as, s =>
    match call a s with
    | (.ok, s) => callAll call as s
    | r => r

/-- `set_single` for each pair. -/
def writeSingle (b : Batch) (s : State) : Ret × State :=
  callAll (fun r s => setSingle s r.1 r.2 b.time) b.pairs s

/-- `resolve_key_bulk`, then `set_single_by_id` for each id. -/
def writeSingleById (b : Batch) (strdups : List Bool) (s : State) : Ret × State :=
  match resolveKeyBulk (b.pairs.map Prod.fst) strdups with
  | none => (.fail, s)
  | some ids =>
    callAll (fun r s => setSingleById s r.1 r.2 b.time) (ids.zip (b.pairs.map Prod.snd)) s

/-- `resolve_key_bulk`, then `set_bulk_init`, then `set_bulk_by_id` for each id. -/
def writeBulk (b : Batch) (strdups : List Bool) (s : BulkState) : Ret × BulkState :=
  match resolveKeyBulk (b.pairs.map Prod.fst) strdups with
  | none => (.fail, s)
  | some ids =>
    match setBulkInit s b.keyCnt b.time with
    | (.ok, s) =>
      callAll (fun r s => setBulkById s r.1 r.2) (ids.zip (b.pairs.map Prod.snd)) s
    | r => r

/-- No bulk set is under way: what `set_bulk_init` asserts. -/
structure Idle (s : BulkState) : Prop where
  expect : s.bulkExpect = 0
  cnt : s.bulkCnt = 0

/-- A bulk set for a time with `n` values to come. -/
structure InSet (s : BulkState) (n : Nat) (time : UInt32) : Prop where
  pos : 0 < n
  count : s.bulkCnt.toNat + n = s.bulkExpect.toNat
  time : s.bulkTime = time

theorem lines_cons (r : CString × UInt64) (rs : List (CString × UInt64)) (time : UInt32) :
    lines (r :: rs) time = metricLine r.1.bytes r.2 time ++ lines rs time :=
  List.flatMap_cons

@[simp] theorem State.print_nil (s : State) : s.print [] = s := by
  rw [State.print, List.append_nil]

theorem State.print_append (s : State) (bs bs' : Bytes) :
    s.print (bs ++ bs') = (s.print bs).print bs' := by
  rw [State.print, State.print, State.print, List.append_assoc]

/-- Calls that each print the line of their pair print the lines of the pairs. -/
theorem callAll_print {α : Type} (call : α → State → Ret × State) (pair : α → CString × UInt64)
    {time : UInt32}
    (hcall : ∀ a s, call a s = (.ok, s.print (metricLine (pair a).1.bytes (pair a).2 time)))
    (as : List α) (s : State) : callAll call as s = (.ok, s.print (lines (as.map pair) time)) := by
  induction as generalizing s with
  | nil => rw [callAll, List.map_nil, lines, List.flatMap_nil, State.print_nil]
  | cons a as ih =>
    rw [callAll, hcall]
    dsimp only
    rw [ih, List.map_cons, lines_cons, State.print_append]

/-- The ids that were resolved, with their values. -/
theorem zip_resolved {pairs : List (CString × UInt64)} {strdups : List Bool} {ids : List Bytes}
    (hids : resolveKeyBulk (pairs.map Prod.fst) strdups = some ids) :
    ids.zip (pairs.map Prod.snd) = pairs.map fun r => (r.1.bytes ++ [0], r.2) := by
  rw [resolveKeyBulk_eq hids, List.map_map, List.zip_map']
  rfl

theorem setSingle_print (s : State) (key : CString) (value : UInt64) (time : UInt32) :
    setSingle s key value time = (.ok, s.print (metricLine key.bytes value time)) := rfl

theorem setSingleById_resolved (s : State) (key : CString) (value : UInt64) (time : UInt32) :
    setSingleById s (key.bytes ++ [0]) value time
      = (.ok, s.print (metricLine key.bytes value time)) := by
  rw [setSingleById, ofBytes_resolved, setSingle_print]

/-- A value of a bulk set is printed with the time of the set. The last one leaves the
backend idle. -/
theorem setBulkById_inSet {s : BulkState} {n : Nat} {time : UInt32} (h : InSet s n time)
    (key : CString) (value : UInt64) :
    ∃ s', setBulkById s (key.bytes ++ [0]) value = (.ok, s') ∧
      s'.toState = s.print (metricLine key.bytes value time) ∧
      (n = 1 ∧ Idle s' ∨ InSet s' (n - 1) time) := by
  have hpos := h.pos
  have hcount := h.count
  have hexpect : 0 < s.bulkExpect := by
    rw [UInt32.lt_iff_toNat_lt]
    exact Nat.lt_of_lt_of_le (Nat.add_pos_right _ hpos) (Nat.le_of_eq hcount)
  have hcnt : (s.bulkCnt + 1).toNat = s.bulkCnt.toNat + 1 := by
    have hlt := s.bulkExpect.toNat_lt
    rw [UInt32.toNat_add, UInt32.toNat_one, Nat.mod_eq_of_lt (by omega)]
  rw [setBulkById, if_pos hexpect, setSingleById_resolved, h.time]
  dsimp only
  by_cases hlast : s.bulkCnt + 1 = s.bulkExpect
  · rw [if_pos hlast]
    have hone : n = 1 := by
      have := congrArg UInt32.toNat hlast
      omega
    exact ⟨_, rfl, rfl, .inl ⟨hone, rfl, rfl⟩⟩
  · rw [if_neg hlast]
    have hmore : n ≠ 1 := by
      rintro rfl
      exact hlast (UInt32.toNat_inj.mp (hcnt.trans hcount))
    refine ⟨_, rfl, rfl, .inr ⟨by omega, ?_, rfl⟩⟩
    show (s.bulkCnt + 1).toNat + (n - 1) = s.bulkExpect.toNat
    omega

/-- The rest of a bulk set, if it has as many values as are missing. -/
theorem callAll_setBulkById {pairs : List (CString × UInt64)} {s : BulkState} {time : UInt32}
    (h : InSet s pairs.length time) :
    ∃ s', callAll (fun r s => setBulkById s r.1 r.2)
        (pairs.map fun r => (r.1.bytes ++ [0], r.2)) s = (.ok, s') ∧
      s'.toState = s.print (lines pairs time) ∧ Idle s' := by
  induction pairs generalizing s with
  | nil => exact absurd h.pos (Nat.lt_irrefl 0)
  | cons r rs ih =>
    obtain ⟨s₁, hcall, hprint, hnext⟩ := setBulkById_inSet h r.1 r.2
    rw [List.map_cons, callAll, hcall]
    dsimp only
    rw [lines_cons, State.print_append, ← hprint]
    rcases hnext with ⟨hlast, hidle⟩ | hin
    · obtain rfl := List.length_eq_zero_iff.mp (Nat.succ.inj hlast)
      exact ⟨s₁, rfl, (State.print_nil _).symm, hidle⟩
    · exact ih hin

/-- **A bulk set** prints its lines and leaves the backend idle. -/
theorem writeBulk_spec (b : Batch) {strdups : List Bool} {ids : List Bytes}
    (hids : resolveKeyBulk (b.pairs.map Prod.fst) strdups = some ids) {s : BulkState}
    (hidle : Idle s) :
    ∃ s', writeBulk b strdups s = (.ok, s') ∧ s'.toState = s.print (lines b.pairs b.time) ∧
      Idle s' := by
  have hset : InSet { s with bulkExpect := b.keyCnt, bulkTime := b.time } b.pairs.length b.time := by
    refine ⟨?_, ?_, rfl⟩
    · rw [b.count]
      exact UInt32.lt_iff_toNat_lt.mp b.nonempty
    · show s.bulkCnt.toNat + b.pairs.length = b.keyCnt.toNat
      rw [hidle.cnt, b.count]
      exact Nat.zero_add _
  rw [writeBulk, hids, setBulkInit, if_pos ⟨hidle.expect, hidle.cnt⟩]
  dsimp only
  rw [zip_resolved hids]
  exact callAll_setBulkById hset

/-- Bulk sets one after the other, each with the outcomes of its `strdup`s. -/
def writeBulks (sets : List (Batch × List Bool)) (s : BulkState) : Ret × BulkState :=
  callAll (fun b s => writeBulk b.1 b.2 s) sets s

theorem writeBulks_spec {sets : List (Batch × List Bool)}
    (hids : ∀ b ∈ sets, (resolveKeyBulk (b.1.pairs.map Prod.fst) b.2).isSome) {s : BulkState}
    (hidle : Idle s) :
    ∃ s', writeBulks sets s = (.ok, s') ∧
      s'.toState = s.print (sets.flatMap fun b => lines b.1.pairs b.1.time) ∧ Idle s' := by
  unfold writeBulks
  induction sets generalizing s with
  | nil => exact ⟨s, rfl, (State.print_nil _).symm, hidle⟩
  | cons b bs ih =>
    obtain ⟨hb, hbs⟩ := List.forall_mem_cons.mp hids
    obtain ⟨ids, hb⟩ := Option.isSome_iff_exists.mp hb
    obtain ⟨s₁, hwrite, hprint, hidle₁⟩ := writeBulk_spec b.1 hb hidle
    rw [callAll, hwrite, List.flatMap_cons, State.print_append, ← hprint]
    exact ih hbs hidle₁

/-- **The ASCII write paths agree**: on an idle backend, a flush of a package that holds
the pairs, `set_single`, `set_single_by_id` and a bulk set print the same lines; and
any number of bulk sets, of whatever sizes and times, may follow one another. -/
theorem writePaths_agree (b : Batch) {strdups : List Bool} {ids : List Bytes}
    (hids : resolveKeyBulk (b.pairs.map Prod.fst) strdups = some ids) {kp : Kp}
    (hkp : kp.enabledPairs = b.pairs.map fun r => (r.1.bytes, r.2)) {s : BulkState}
    (hidle : Idle s) :
    (kpFlush kp b.time s.toState).2.2.output = s.output ++ lines b.pairs b.time ∧
      writeSingle b s.toState = (.ok, s.print (lines b.pairs b.time)) ∧
      writeSingleById b strdups s.toState = (.ok, s.print (lines b.pairs b.time)) ∧
      (∃ s', writeBulk b strdups s = (.ok, s') ∧
        s'.toState = s.print (lines b.pairs b.time) ∧ Idle s') ∧
      ∀ sets : List (Batch × List Bool),
        (∀ b ∈ sets, (resolveKeyBulk (b.1.pairs.map Prod.fst) b.2).isSome) →
        ∃ s', writeBulks sets s = (.ok, s') ∧
          s'.toState = s.print (sets.flatMap fun b => lines b.1.pairs b.1.time) ∧ Idle s' := by
  refine ⟨?_, ?_, ?_, writeBulk_spec b hids hidle, fun sets hsets => writeBulks_spec hsets hidle⟩
  · rw [kpFlush_output, hkp, List.flatMap_map]
    rfl
  · have hcall : ∀ (r : CString × UInt64) (s : State), setSingle s r.1 r.2 b.time
        = (.ok, s.print (metricLine r.1.bytes r.2 b.time)) :=
      fun r s => setSingle_print s r.1 r.2 b.time
    have hwrite := callAll_print _ id hcall b.pairs s.toState
    rwa [List.map_id] at hwrite
  · have hread : (b.pairs.map fun r => (r.1.bytes ++ [0], r.2)).map
        (fun r => (CString.ofBytes r.1, r.2)) = b.pairs := by
      rw [List.map_map, List.map_congr_left fun r _ => ?_, List.map_id]
      exact congrArg (·, r.2) (ofBytes_resolved r.1)
    have hcall : ∀ (r : Bytes × UInt64) (s : State), setSingleById s r.1 r.2 b.time
        = (.ok, s.print (metricLine (CString.ofBytes r.1).bytes r.2 b.time)) :=
      fun r s => setSingle_print s (CString.ofBytes r.1) r.2 b.time
    have hwrite := callAll_print _ (fun r : Bytes × UInt64 => (CString.ofBytes r.1, r.2)) hcall
      (b.pairs.map fun r => (r.1.bytes ++ [0], r.2)) s.toState
    rw [hread] at hwrite
    rw [writeSingleById, hids]
    dsimp only
    rw [zip_resolved hids, hwrite]

/-- Two pairs with one key. -/
def sameKeyTwice : Batch where
  pairs := [(CString.ofAscii "a", 1), (CString.ofAscii "a", 18446744073709551615)]
  keyCnt := 2
  time := 4294967295
  count := rfl
  nonempty := by decide

theorem writePaths_agree_sameKeyTwice :
    let kp := (((((Kp.init 0).addKey .success (CString.ofAscii "a")).2.addKey .success
      (CString.ofAscii "a")).2.set 0 1).2.set 1 18446744073709551615).2
    let s : BulkState := ⟨⟨[]⟩, 0, 0, 0⟩
    let b := sameKeyTwice
    (kpFlush kp b.time s.toState).2.2.output = s.output ++ lines b.pairs b.time ∧
      writeSingle b s.toState = (.ok, s.print (lines b.pairs b.time)) ∧
      writeSingleById b [] s.toState = (.ok, s.print (lines b.pairs b.time)) ∧
      (∃ s', writeBulk b [] s = (.ok, s') ∧
        s'.toState = s.print (lines b.pairs b.time) ∧ Idle s') ∧
      ∀ sets : List (Batch × List Bool),
        (∀ b ∈ sets, (resolveKeyBulk (b.1.pairs.map Prod.fst) b.2).isSome) →
        ∃ s', writeBulks sets s = (.ok, s') ∧
          s'.toState = s.print (sets.flatMap fun b => lines b.1.pairs b.1.time) ∧ Idle s' :=
  writePaths_agree sameKeyTwice rfl (by decide +kernel) ⟨rfl, rfl⟩

end Ascii

end Libtimeseries
