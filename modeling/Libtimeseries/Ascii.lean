import Libtimeseries.Backend

/-!
# The ASCII backend (`timeseries_backend_ascii.c`)

One line per enabled key, `key value time`. The output stream is the list of
bytes printed so far; `fprintf` and `wandio_printf` are taken to succeed, as the
backend ignores what they return.
-/

namespace Libtimeseries

open ByteLib

/-- Decimal digits, as printed by `PRIu64` and `PRIu32`. -/
def decimal (n : Nat) : Bytes := (Nat.toDigits 10 n).map fun c => UInt8.ofNat c.toNat

/-- The line `"%s %" PRIu64 " %" PRIu32 "\n"` of a metric. -/
def metricLine (key : Bytes) (value : UInt64) (time : UInt32) : Bytes :=
  key ++ [32] ++ decimal value.toNat ++ [32] ++ decimal time.toNat ++ [10]

namespace Ascii

/-- `struct timeseries_backend_ascii_state`: what was written to the output. -/
structure State where
  output : Bytes

/-- `DUMP_METRIC` -/
def dumpMetric (s : State) (key : Bytes) (value : UInt64) (time : UInt32) : State :=
  { s with output := s.output ++ metricLine key value time }

/-- `timeseries_backend_ascii_set_single` -/
def setSingle (s : State) (key : CString) (value : UInt64) (time : UInt32) : Ret × State :=
  (.ok, dumpMetric s key.bytes value time)

/-- `timeseries_backend_ascii_kp_flush` -/
def kpFlush (kp : Kp) (time : UInt32) (s : State) : Ret × Kp × State :=
  (.ok, kp, kp.enabledKis.foldl (fun s ki => dumpMetric s ki.name ki.value time) s)

/-- The `char time_buffer[11]` of a flush: its 10 digits hold any time. -/
theorem decimal_time_take (time : UInt32) : (decimal time.toNat).take 10 = decimal time.toNat := by
  have hlen : (Nat.toDigits 10 time.toNat).length ≤ 10 :=
    (Nat.length_toDigits_le_iff (by decide) (by decide)).mpr
      (Nat.lt_trans time.toNat_lt (by decide))
  refine List.take_of_length_le ?_
  rw [decimal, List.length_map]
  exact hlen

/-- What a flush appends to the output: a line for each enabled key. -/
theorem kpFlush_output (kp : Kp) (time : UInt32) (s : State) :
    (kpFlush kp time s).2.2.output
      = s.output ++ kp.enabledPairs.flatMap fun r => metricLine r.1 r.2 time := by
  unfold kpFlush Kp.enabledPairs
  dsimp only
  generalize kp.enabledKis = kis
  induction kis generalizing s with
  | nil => exact (List.append_nil _).symm
  | cons ki kis ih =>
    rw [List.foldl_cons, ih, List.map_cons, List.flatMap_cons, ← List.append_assoc]
    rfl

/-- The callbacks of the ASCII backend. -/
def backend : Backend State where
  kpKiUpdate := fun kp s => (.ok, kp, s)
  kpFlush := kpFlush
  kpKiUpdate_erase := fun _ _ => rfl
  kpFlush_erase := fun _ _ _ => rfl

end Ascii

end Libtimeseries
