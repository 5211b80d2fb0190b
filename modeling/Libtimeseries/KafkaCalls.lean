import Libtimeseries.KafkaPlan

/-!
# Calls of the Kafka backend

`timeseries_backend_kafka_set_single` is written out separately from
`timeseries_backend_kafka_kp_flush`; it does what a flush of a package with one
enabled key does (`setSingle_finish`). Both produce their plan, whatever Kafka
answers, and leave the buffer empty: a call that failed leaves nothing behind for
the calls after it.
-/

namespace Libtimeseries

open ByteLib RunLib

namespace Kafka

/-! ## One enabled key -/

/-- `SEND_MSG` of an empty buffer does nothing. -/
theorem Fill.sendMsg_idle {f : Fill} (h : f.st.bufferWritten = 0) (key : UInt32) :
    f.sendMsg key = (true, { f with ptr := 0 }) := by
  unfold sendMsg
  rw [if_neg (by omega)]

theorem Fill.sendMsg_empties (f : Fill) (key : UInt32) :
    (f.sendMsg key).2.st.bufferWritten = 0 := by
  unfold sendMsg
  split
  · rfl
  · next hzero => exact Nat.eq_zero_of_not_pos hzero

/-- Send what the buffer of a state holds. -/
def sendState (st : State) (key : UInt32) : Ret × State :=
  let r := (⟨st, 0, 0, 0⟩ : Fill).sendMsg key
  (if r.1 then .ok else .fail, r.2.st)

/-- What is sent depends on the state alone. -/
theorem Fill.sendMsg_state (f : Fill) (key : UInt32) :
    (if (f.sendMsg key).1 then Ret.ok else .fail, (f.sendMsg key).2.st) = sendState f.st key := by
  unfold sendState sendMsg
  split <;> rfl

/-- What the buffer holds after the last key is sent once, in the loop or behind
it. -/
theorem finishFlush_endKey (kis : List Ki) (f : Fill) :
    finishFlush (f.endKey.1, kis, f.endKey.2) = sendState f.st f.msgkey := by
  rw [← f.sendMsg_state]
  by_cases hfull : bufferLen / 2 < f.st.bufferWritten
  · rw [Fill.endKey_full hfull]
    have hempty := f.sendMsg_empties f.msgkey
    generalize f.sendMsg f.msgkey = r at hempty ⊢
    obtain ⟨success, f'⟩ := r
    cases success with
    | false => rfl
    | true =>
      show (if (f'.sendMsg f'.msgkey).1 then Ret.ok else .fail, (f'.sendMsg f'.msgkey).2.st) = _
      rw [Fill.sendMsg_idle hempty]
  · rw [Fill.endKey_idle (Nat.le_of_not_lt hfull)]
    rfl

/-- The last key of a package. -/
theorem finishFlush_singleton {ki : Ki} (hd : ki.disabled = false) (time : UInt32) (f : Fill) :
    finishFlush (Fill.kpFlushLoop time [ki] f)
      = finishFlush ((f.kpFlushKey time ki).1, [], (f.kpFlushKey time ki).2.2) := by
  rw [Fill.kpFlushLoop, if_neg (by simp [hd])]
  generalize f.kpFlushKey time ki = r
  obtain ⟨r, ki', f'⟩ := r
  cases r <;> rfl

/-- Only the enabled keys of a package matter. -/
theorem finishFlush_enabled (time : UInt32) (kis : List Ki) (f : Fill) :
    finishFlush (Fill.kpFlushLoop time kis f)
      = finishFlush (Fill.kpFlushLoop time (kis.filter fun ki => !ki.disabled) f) := by
  induction kis generalizing f with
  | nil => rfl
  | cons ki kis ih =>
    cases hd : ki.disabled with
    | true =>
      rw [List.filter_cons_of_neg (by simp [hd]), finishFlush_disabled hd]
      exact ih f
    | false =>
      rw [List.filter_cons_of_pos (by simp [hd]), Fill.kpFlushLoop, Fill.kpFlushLoop,
        if_neg (by simp [hd]), if_neg (by simp [hd])]
      generalize f.kpFlushKey time ki = r
      obtain ⟨r, ki', f'⟩ := r
      cases r with
      | ok =>
        have hrest := ih f'
        dsimp only
        generalize Fill.kpFlushLoop time kis f' = r at hrest ⊢
        generalize Fill.kpFlushLoop time (kis.filter fun ki => !ki.disabled) f' = r' at hrest ⊢
        obtain ⟨r, kis', f''⟩ := r
        obtain ⟨r', kis'', f'''⟩ := r'
        cases r <;> cases r' <;> exact hrest
      | fail => rfl
      | stop why => rfl

/-- The TSK part of `set_single` is the body of the loop for one key. -/
theorem setSingleTsk_finish (st : State) (key : CString) (value : UInt64)
    (time lasthash msgkey : UInt32) :
    setSingleTsk ⟨st, 0, 0, time⟩ key value time msgkey
      = finishFlush
          (((⟨st, 0, 0, 0⟩ : Fill).tskKey time key.bytes value lasthash msgkey).1, [],
            ((⟨st, 0, 0, 0⟩ : Fill).tskKey time key.bytes value lasthash msgkey).2) := by
  have hbegin : ((⟨st, 0, 0, time⟩ : Fill).beginMessage time).map (fun f => (f.st, f.ptr))
      = ((⟨st, 0, 0, 0⟩ : Fill).beginMessage time).map (fun f => (f.st, f.ptr)) := by
    unfold Fill.beginMessage
    split
    · rw [Option.map_map, Option.map_map]
      rfl
    · rfl
  unfold setSingleTsk Fill.tskKey
  cases h₁ : (⟨st, 0, 0, time⟩ : Fill).beginMessage time with
  | none =>
    cases h₂ : (⟨st, 0, 0, 0⟩ : Fill).beginMessage time with
    | none => rfl
    | some f₂ => simp [h₁, h₂] at hbegin
  | some f₁ =>
    cases h₂ : (⟨st, 0, 0, 0⟩ : Fill).beginMessage time with
    | none => simp [h₁, h₂] at hbegin
    | some f₂ =>
      obtain ⟨st₁, ptr₁, lasthash₁, msgkey₁⟩ := f₁
      obtain ⟨st₂, ptr₂, lasthash₂, msgkey₂⟩ := f₂
      obtain ⟨rfl, rfl⟩ : st₁ = st₂ ∧ ptr₁ = ptr₂ := by simpa [h₁, h₂] using hbegin
      unfold Fill.appendKv
      dsimp only
      cases writeKv st₁.buffer ptr₁ (bufferLen - st₁.bufferWritten) key.bytes value with
      | none => rfl
      | some w =>
        dsimp only [Option.map_some]
        rw [finishFlush_endKey, Fill.sendMsg_state]
        rfl

/-- A single write is what a flush does for the only enabled key. -/
theorem setSingle_finish {st : State} (hempty : st.bufferWritten = 0) {ki : Ki}
    (hd : ki.disabled = false) {key : CString} (hkey : ki.key = key.bytes) (time : UInt32) :
    setSingle st key ki.value time = finishFlush (Fill.kpFlushLoop time [ki] ⟨st, 0, 0, 0⟩) := by
  have hname : ki.name = key.bytes := by
    rw [Ki.name, hkey, cstr_of_nulFree key.nulFree]
  rw [finishFlush_singleton hd]
  unfold setSingle Fill.kpFlushKey
  rw [if_pos hempty]
  cases hf : st.conf.format with
  | ascii =>
    dsimp only
    rw [hname]
    unfold Fill.appendAscii
    dsimp only
    by_cases hfail : (writeAscii st.buffer 0 (bufferLen - st.bufferWritten) key.bytes ki.value
        time).1 ≤ 0
    · rw [if_pos hfail, if_pos hfail]
      rfl
    · rw [if_neg hfail, if_neg hfail, finishFlush_endKey]
      dsimp only
      rw [Fill.sendMsg_state]
      rfl
  | tsk =>
    rw [hname]
    exact setSingleTsk_finish st key ki.value time 0 time
  | tskKeypart =>
    have hidle : ¬ ((hashWithoutLastTerm ki.key).1 ≠ 0 ∧ 0 < st.bufferWritten) := by
      rw [hempty]
      exact fun h => Nat.lt_irrefl 0 h.2
    dsimp only
    rw [if_neg hidle, hkey]
    simp only [hashWithoutLastTerm_restores]
    rw [← hkey, show ({ ki with key := ki.key } : Ki) = ki from rfl, hname]
    exact setSingleTsk_finish st key ki.value time _ _

/-- **What a single write does**: it produces its plan. -/
theorem setSingle_plan {st : State} (hempty : st.bufferWritten = 0) (key : CString)
    {value : UInt64} {time : UInt32} (hfit : RecordsFit st.conf time 0 [(key.bytes, value)]) :
    Produces st (plan st.conf time [(key.bytes, value)]) (setSingle st key value time).1
      (setSingle st key value time).2 := by
  let ki : Ki := ⟨key.bytes, value, fun _ => none, false⟩
  have hname : ki.name = key.bytes := cstr_of_nulFree key.nulFree
  have hpairs : pairsOf [ki] = [(key.bytes, value)] := by
    rw [pairsOf_cons_enabled rfl, pairsOf_nil, hname]
  have hkis : ∀ ki' ∈ [ki], (0 : UInt8) ∉ ki'.key := by
    intro ki' hki'
    rw [List.mem_singleton.mp hki']
    exact key.nulFree
  have hhas : (⟨st, 0, 0, 0⟩ : Fill).Has st.conf time [] := Fill.has_nil rfl hempty
  have hnil : levelOf st.conf time [] = 0 := levelOf_eq_zero.mpr rfl
  rw [← hnil, ← hpairs] at hfit
  have hloop := kpFlushLoop_plan hkis _ _ hhas (hempty.le.trans (Nat.zero_le _)) hfit
  rw [hpairs] at hloop
  have hfinish : setSingle st key ki.value time
      = finishFlush (Fill.kpFlushLoop time [ki] ⟨st, 0, 0, 0⟩) := setSingle_finish hempty rfl rfl time
  rw [← hfinish] at hloop
  exact hloop

/-- **`set_single` agrees with `kp_flush`**: for a package with the one enabled key
it makes the same attempts, returns the same code and leaves the same state. -/
theorem setSingle_eq_kpFlush {kp : Kp} {ki : Ki} (hkis : kp.enabledKis = [ki]) {key : CString}
    (hkey : ki.key = key.bytes) (time : UInt32) (st : State) :
    setSingle st key ki.value time = ((kpFlush kp time st).1, (kpFlush kp time st).2.2) := by
  by_cases hempty : st.bufferWritten = 0
  · have hmem : ki ∈ kp.enabledKis := hkis ▸ List.mem_singleton_self ki
    have hd : ki.disabled = false := by simpa using (List.mem_filter.mp hmem).2
    rw [kpFlush_finish hempty, finishFlush_enabled, setSingle_finish hempty hd hkey]
    exact congrArg (fun kis => finishFlush (Fill.kpFlushLoop time kis ⟨st, 0, 0, 0⟩)) hkis.symm
  · unfold setSingle kpFlush
    rw [if_neg hempty, if_neg hempty]

/-- Two keys, the first of them disabled. -/
def secondEnabled : Kp :=
  ((((Kp.init 0).addKey .success (CString.ofAscii "a")).2.addKey .success
    (CString.ofAscii "b.c")).2.set 1 7).2.disableKey 0

theorem setSingle_eq_kpFlush_secondEnabled :
    let st := State.init (smallConf .tskKeypart) [.queueFull, .fatal]
    setSingle st (CString.ofAscii "b.c") 7 60
      = ((kpFlush secondEnabled 60 st).1, (kpFlush secondEnabled 60 st).2.2) := by
  have hkis : secondEnabled.enabledKis = [(Ki.init (CString.ofAscii "b.c")).set 7] := rfl
  exact setSingle_eq_kpFlush hkis rfl 60 _

/-! ## Sequences of calls -/

namespace ProducerCall

/-- What a call returns. -/
def ret (st : State) : ProducerCall → Ret
  | kpFlush kp time => (Kafka.kpFlush kp time st).1
  | setSingle key value time => (Kafka.setSingle st key value time).1

/-- The records a call produces. -/
def records : ProducerCall → List (Bytes × UInt64)
  | kpFlush kp _ => kp.enabledPairs
  | setSingle key value _ => [(key.bytes, value)]

/-- The keys of a call are C strings. -/
def NulFree : ProducerCall → Prop
  | kpFlush kp _ => ∀ ki ∈ kp.keyInfos, (0 : UInt8) ∉ ki.key
  | setSingle _ _ _ => True

/-- **What a call does**: it produces its plan, and the buffer is empty again. -/
theorem produces {st : State} (hempty : st.bufferWritten = 0) {c : ProducerCall}
    (hnul : c.NulFree) (hfit : RecordsFit st.conf c.time 0 c.records) :
    Produces st (plan st.conf c.time c.records) (c.ret st) (c.step st) := by
  cases c with
  | kpFlush kp time => exact kpFlush_plan hempty hnul hfit
  | setSingle key value time => exact setSingle_plan hempty key hfit

end ProducerCall

/-- A call starts from an empty buffer, comes to its end and leaves an empty buffer;
it makes the attempts it would make on a backend that was never used before. -/
structure Isolated (st : State) (c : ProducerCall) : Prop where
  emptyBefore : st.bufferWritten = 0
  returns : c.ret st = .ok ∨ c.ret st = .fail
  emptyAfter : (c.step st).bufferWritten = 0
  attempts : (c.step st).produced
    = st.produced ++ (c.step (State.init st.conf st.produceResults)).produced

/-- **Nothing stays behind**: every call of a run whose records are within the
bounds of the buffer is isolated from those before it, whether they failed or
not. -/
theorem calls_isolated (conf : Conf) (results : List ProduceResult) {calls : List ProducerCall}
    (hcalls : ∀ c ∈ calls, c.NulFree ∧ RecordsFit conf c.time 0 c.records) :
    Along ProducerCall.step Isolated (State.init conf results) calls := by
  have hrun : ∀ st : State, st.conf = conf → st.bufferWritten = 0 →
      Along ProducerCall.step Isolated st calls := by
    induction calls with
    | nil => exact fun _ _ _ => trivial
    | cons c calls ih =>
      intro st hconf hempty
      obtain ⟨⟨hnul, hfit⟩, hcalls'⟩ := List.forall_mem_cons.mp hcalls
      subst hconf
      have hcall := ProducerCall.produces hempty hnul hfit
      have hfresh : Produces (State.init st.conf st.produceResults) _ _ _ :=
        ProducerCall.produces rfl hnul hfit
      refine ⟨⟨hempty, ?_, hcall.empty, ?_⟩, ih hcalls' _ hcall.sent.conf hcall.empty⟩
      · rw [hcall.ret]
        split
        · exact .inl rfl
        · exact .inr rfl
      · rw [hcall.sent.produced, hfresh.sent.produced]
        rfl
  exact hrun _ rfl rfl

/-- A flush that fails, and a single write after it. -/
theorem calls_isolated_failedFlush :
    Along ProducerCall.step Isolated (State.init (smallConf .tsk) [.queueFull, .fatal, .ok])
      [.kpFlush secondEnabled 60, .setSingle (CString.ofAscii "d") 9 120] := by
  refine calls_isolated (smallConf .tsk) [.queueFull, .fatal, .ok] ?_
  refine List.forall_mem_cons.mpr ⟨⟨?_, ?_⟩, List.forall_mem_singleton.mpr ⟨trivial, ?_⟩⟩
  · show ∀ ki ∈ secondEnabled.keyInfos, (0 : UInt8) ∉ ki.key
    decide
  · exact (recordsFit_tsk (by decide)).mpr (by decide)
  · exact (recordsFit_tsk (by decide)).mpr (by decide)

end Kafka

end Libtimeseries
