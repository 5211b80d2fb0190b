import Mathlib.Data.List.DropRight
import Libtimeseries.KafkaPlan

/-!
# The messages of a flush

A flush during which the queue may be full for a while, but no fatal error occurs,
returns 0 and its messages hold the enabled keys in order: in the TSK formats each
is a header with whole records, under the time or under the hash of all its keys
without their last term; in the ASCII format each is a sequence of whole lines, and
together they are what the ASCII backend writes.
-/

namespace Libtimeseries

open ByteLib CutLib

namespace Kafka

/-! ## Every message gets through -/

/-- Without a fatal error every message is produced, once. -/
theorem sendAll_spec (ms : List (Bytes × Bytes)) {rs : List ProduceResult}
    (hfatal : .fatal ∉ rs) :
    (sendAll ms rs).1 = true ∧
      (((sendAll ms rs).2.2.filter fun a => a.result = .ok).map fun a => (a.payload, a.key))
        = ms := by
  induction ms generalizing rs with
  | nil => exact ⟨rfl, rfl⟩
  | cons m ms ih =>
    obtain ⟨hsuffix, hfalse, hmsgs⟩ := produceLoop_spec m.1 m.2 rs
    have htrue : (produceLoop m.1 m.2 rs).1 = true := by
      by_contra hne
      exact hfatal (hfalse (Bool.eq_false_iff.mpr hne))
    obtain ⟨hret, hrest⟩ := ih fun h => hfatal (hsuffix.subset h)
    rw [sendAll_cons_of_true htrue]
    rw [if_pos htrue] at hmsgs
    exact ⟨hret, by rw [List.filter_append, List.map_append, hmsgs, hrest]; rfl⟩

theorem Produces.messages {st st' : State} {ms : List (Bytes × Bytes)} {ret : Ret}
    (h : Produces st ms ret st') (hfatal : .fatal ∉ st.produceResults) :
    ret = .ok ∧ st'.messages = st.messages ++ ms := by
  obtain ⟨htrue, hmsgs⟩ := sendAll_spec ms hfatal
  constructor
  · rw [h.ret, if_pos htrue]
  · unfold State.messages
    rw [h.sent.produced, List.filter_append, List.map_append, hmsgs]

/-! ## The hash of a key without its last term -/

/-- A name up to its last dot: the whole name if there is none. -/
def upToLastDot (name : Bytes) : Bytes :=
  if 46 ∈ name then (name.rdropWhile (· ≠ 46)).dropLast else name

theorem upToLastDot_of_notMem {name : Bytes} (h : 46 ∉ name) : upToLastDot name = name :=
  if_neg h

theorem upToLastDot_append (a : Bytes) {b : Bytes} (h : 46 ∉ b) :
    upToLastDot (a ++ 46 :: b) = a := by
  have hdrop : (a ++ 46 :: b).rdropWhile (· ≠ 46) = a ++ [46] := by
    induction b using List.reverseRecOn with
    | nil => exact List.rdropWhile_concat_neg _ _ _ (by simp)
    | append_singleton b c ih =>
      rw [List.mem_append, List.mem_singleton, not_or] at h
      rw [← List.cons_append, ← List.append_assoc,
        List.rdropWhile_concat_pos _ _ _ (by simpa using Ne.symm h.2)]
      exact ih h.1
  unfold upToLastDot
  rw [if_pos (by simp), hdrop, List.dropLast_concat]

theorem lastIndex_none {c : UInt8} {bs : Bytes} (h : lastIndex c bs = none) : c ∉ bs := by
  induction bs with
  | nil => exact List.not_mem_nil
  | cons b bs ih =>
    rw [lastIndex] at h
    cases hbs : lastIndex c bs with
    | some j => simp [hbs] at h
    | none =>
      have hb : b ≠ c := by
        rintro rfl
        simp [hbs] at h
      rw [List.mem_cons, not_or]
      exact ⟨hb.symm, ih hbs⟩

theorem lastIndex_some {c : UInt8} {bs : Bytes} {i : Nat} (h : lastIndex c bs = some i) :
    ∃ a b, bs = a ++ c :: b ∧ a.length = i ∧ c ∉ b := by
  induction bs generalizing i with
  | nil => cases h
  | cons b bs ih =>
    rw [lastIndex] at h
    cases hbs : lastIndex c bs with
    | some j =>
      obtain ⟨front, back, rfl, hlen, hback⟩ := ih hbs
      obtain rfl : j + 1 = i := by simpa [hbs] using h
      exact ⟨b :: front, back, rfl, congrArg (· + 1) hlen, hback⟩
    | none =>
      by_cases hb : b = c
      · obtain rfl : 0 = i := by simpa [hbs, hb] using h
        exact ⟨[], bs, by rw [hb]; rfl, rfl, lastIndex_none hbs⟩
      · simp [hbs, hb] at h

/-- Cutting the key in place hashes it up to its last dot. -/
theorem hashWithoutLastTerm_eq {key : Bytes} (hnul : (0 : UInt8) ∉ key) :
    (hashWithoutLastTerm key).1 = keyhash (upToLastDot key) := by
  unfold hashWithoutLastTerm strrchr
  rw [cstr_of_nulFree hnul]
  cases hdot : lastIndex 46 key with
  | none => rw [upToLastDot_of_notMem (lastIndex_none hdot)]
  | some i =>
    obtain ⟨a, b, rfl, rfl, hb⟩ := lastIndex_some hdot
    have ha : (0 : UInt8) ∉ a := fun h => hnul (List.mem_append_left _ h)
    have hcut : cstr (a ++ 0 :: b) = cstr a := by
      rw [cstr_of_nulFree ha]
      unfold cstr
      rw [List.takeWhile_append_of_pos (fun c hc => by simpa using fun h : c = 0 => ha (h ▸ hc))]
      simp
    rw [upToLastDot_append a hb]
    show keyhash ((a ++ 46 :: b).set a.length 0) = _
    rw [List.set_append_right _ _ (Nat.le_refl _), Nat.sub_self, List.set_cons_zero]
    unfold keyhash
    rw [hcut]

/-! ## The TSK formats -/

/-- The message key of a segment: the time, or the hash that its keys without their
last term have in common. -/
def SegmentKey (time : UInt32) (segment : List (Bytes × UInt64)) (key : Bytes) : Format → Prop
  | .ascii => False
  | .tsk => key = beBytes 4 time.toNat
  | .tskKeypart => ∃ h : UInt32, key = beBytes 4 h.toNat ∧
      ∀ r ∈ segment, keyhash (upToLastDot r.1) = h

/-- A message, as (payload, key), is one header with a segment of the records. -/
structure Carries (conf : Conf) (time : UInt32) (segment : List (Bytes × UInt64))
    (m : Bytes × Bytes) : Prop where
  nonempty : segment ≠ []
  payload : m.1 = Tsk.message Tsk.batchMagic time conf.channelName.bytes segment
  key : SegmentKey time segment m.2 conf.format

/-- What a message holds has its key in common. -/
theorem keyOf_of_mem_cut {conf : Conf} {time : UInt32} (hfmt : conf.format = .tskKeypart)
    {rs segment : List (Bytes × UInt64)}
    (hsegment : segment ∈ cut (splitsAt conf time) (halfFull conf time) [] rs) :
    ∀ r ∈ segment, (hashWithoutLastTerm r.1).1 = keyOf conf time segment := by
  refine (cut_forall _ _ (fun m => ∀ r ∈ m, (hashWithoutLastTerm r.1).1 = keyOf conf time m)
    ?_ ?_ (fun h => absurd rfl h) rs segment hsegment).2
  · intro a r hr
    rw [List.mem_singleton.mp hr]
    exact (keyOf_concat hfmt [] a).symm
  · intro cur a _ hcur hjoins _ r hr
    have ha : (hashWithoutLastTerm a.1).1 = keyOf conf time cur := by
      simpa [splitsAt, hfmt] using hjoins
    rw [keyOf_concat hfmt]
    rcases List.mem_append.mp hr with hr | hr
    · rw [hcur r hr, ha]
    · rw [List.mem_singleton.mp hr]

/-- Every message of the plan carries its segment. -/
theorem carries_of_mem_cut {conf : Conf} (hfmt : conf.format ≠ .ascii) (time : UInt32)
    {rs : List (Bytes × UInt64)} (hnul : ∀ r ∈ rs, (0 : UInt8) ∉ r.1)
    {segment : List (Bytes × UInt64)}
    (hsegment : segment ∈ cut (splitsAt conf time) (halfFull conf time) [] rs) :
    Carries conf time segment (messageOf conf time segment) where
  nonempty := ne_nil_of_mem_cut _ _ hsegment
  payload := by
    show bytesOf conf time segment = _
    rw [bytesOf_tsk hfmt, bufferBytes, if_neg (ne_nil_of_mem_cut _ _ hsegment)]
  key := by
    show SegmentKey time segment (beBytes 4 (keyOf conf time segment).toNat) conf.format
    cases hf : conf.format with
    | ascii => exact hfmt hf
    | tsk =>
      rw [keyOf_time (by rw [hf]; rintro ⟨⟩)]
      rfl
    | tskKeypart =>
      refine ⟨keyOf conf time segment, rfl, fun r hr => ?_⟩
      rw [← hashWithoutLastTerm_eq (hnul r (mem_of_mem_cut _ _ hsegment hr))]
      exact keyOf_of_mem_cut hf hsegment r hr

/-- **Segmentation**: in the TSK formats a flush without a fatal error returns 0, and
the messages it produces carry the enabled keys of the package segment by segment:
none is lost, split or repeated. -/
theorem kpFlush_segments {st : State} (hfmt : st.conf.format ≠ .ascii)
    (hempty : st.bufferWritten = 0) (hfatal : .fatal ∉ st.produceResults) {kp : Kp}
    (hkeys : ∀ ki ∈ kp.keyInfos, (0 : UInt8) ∉ ki.key ∧ ki.key.length < 65535) (time : UInt32) :
    let r := kpFlush kp time st
    r.1 = .ok ∧ ∃ segments new, r.2.2.messages = st.messages ++ new ∧
      segments.flatten = kp.enabledPairs ∧ List.Forall₂ (Carries st.conf time) segments new := by
  have hpairs := enabledPairs_keys hkeys
  have hflush := kpFlush_plan hempty (fun ki hki => (hkeys ki hki).1)
    ((recordsFit_tsk hfmt).mpr fun r hr => (hpairs r hr).2 : RecordsFit st.conf time 0 _)
  obtain ⟨hok, hmsgs⟩ := hflush.messages hfatal
  refine ⟨hok, cut (splitsAt st.conf time) (halfFull st.conf time) [] kp.enabledPairs, _, hmsgs,
    cut_flatten _ _ [] _, ?_⟩
  refine List.forall₂_map_right_iff.mpr (List.forall₂_same.mpr fun segment hsegment => ?_)
  exact carries_of_mem_cut hfmt time (fun r hr => (hpairs r hr).1) hsegment

/-- Three keys, two of them under one hash, and the queue full twice. -/
def threeKeys : Kp :=
  ((((Kp.init 0).addKey .success (CString.ofAscii "a.b")).2.addKey .success
    (CString.ofAscii "a.c")).2.addKey .success (CString.ofAscii "d")).2.set 1 7 |>.2

theorem kpFlush_segments_threeKeys :
    let st := State.init (smallConf .tskKeypart) [.queueFull, .ok, .queueFull]
    let r := kpFlush threeKeys 60 st
    r.1 = .ok ∧ ∃ segments new, r.2.2.messages = st.messages ++ new ∧
      segments.flatten = threeKeys.enabledPairs ∧
      List.Forall₂ (Carries st.conf 60) segments new :=
  kpFlush_segments (by decide) rfl (by decide) (by decide) 60

/-! ## The ASCII format -/

/-- Short lines fit whatever is in a buffer that is not sent yet. -/
theorem linesFit_of_short {ns : List Nat} (hns : ∀ n ∈ ns, n < bufferLen / 2) {fill : Nat}
    (hfill : fill ≤ bufferLen / 2) : LinesFit fill ns := by
  induction ns generalizing fill with
  | nil => trivial
  | cons n ns ih =>
    obtain ⟨hn, hns'⟩ := List.forall_mem_cons.mp hns
    have hbl : bufferLen = 1048576 := rfl
    constructor
    · omega
    · refine ih hns' ?_
      unfold nextFill
      split
      · exact Nat.zero_le _
      · next hfull => exact Nat.le_of_not_lt hfull

/-- Messages of short lines leave room for the terminator. -/
theorem flatMap_line_lt {conf : Conf} (hfmt : conf.format = .ascii) {time : UInt32}
    {rs segment : List (Bytes × UInt64)} (hrs : ∀ r ∈ rs, (line time r).length < bufferLen / 2)
    (hsegment : segment ∈ cut (splitsAt conf time) (halfFull conf time) [] rs) :
    (segment.flatMap (line time)).length < bufferLen := by
  have hbl : bufferLen = 1048576 := rfl
  refine (cut_forall _ _ (fun m => (∀ r ∈ m, (line time r).length < bufferLen / 2) →
    (m.flatMap (line time)).length < bufferLen) ?_ ?_ (fun h => absurd rfl h) rs segment
    hsegment).2 fun r hr => hrs r (mem_of_mem_cut _ _ hsegment hr)
  · intro a ha
    have hshort := ha a List.mem_cons_self
    rw [List.flatMap_singleton]
    omega
  · intro cur a _ _ _ hopen ha
    have hshort := ha a (List.mem_append_right _ List.mem_cons_self)
    have hhalf : (cur.flatMap (line time)).length ≤ bufferLen / 2 := by
      rw [halfFull, levelOf_ascii hfmt] at hopen
      simpa using hopen
    rw [List.flatMap_append, List.flatMap_singleton, List.length_append]
    omega

/-- A payload of whole lines, for some of the records in a row. -/
def WholeLines (time : UInt32) (rs : List (Bytes × UInt64)) (payload : Bytes) : Prop :=
  ∃ segment, segment ≠ [] ∧ segment <:+: rs ∧ payload = segment.flatMap (line time)

/-- **Agreement with the ASCII backend**: when all lines are shorter than half the
buffer and no fatal error occurs, the payloads are sequences of whole lines, and
one behind the other they are what the ASCII backend writes. -/
theorem kpFlush_ascii {st : State} (hfmt : st.conf.format = .ascii) (hempty : st.bufferWritten = 0)
    (hfatal : .fatal ∉ st.produceResults) {kp : Kp}
    (hkeys : ∀ ki ∈ kp.keyInfos, (0 : UInt8) ∉ ki.key) {time : UInt32}
    (hlines : ∀ r ∈ kp.enabledPairs, (line time r).length < bufferLen / 2) (file : Ascii.State) :
    let r := kpFlush kp time st
    r.1 = .ok ∧ ∃ new, r.2.2.messages = st.messages ++ new ∧
      (Ascii.kpFlush kp time file).2.2.output = file.output ++ (new.map Prod.fst).flatten ∧
      ∀ m ∈ new, m.1 ≠ [] ∧ WholeLines time kp.enabledPairs m.1 := by
  have hfit : RecordsFit st.conf time 0 kp.enabledPairs := by
    refine (recordsFit_ascii hfmt).mpr (linesFit_of_short ?_ (Nat.zero_le _))
    intro n hn
    obtain ⟨r, hr, rfl⟩ := List.mem_map.mp hn
    exact hlines r hr
  obtain ⟨hok, hmsgs⟩ := (kpFlush_plan hempty hkeys hfit).messages hfatal
  have hpayload : ∀ segment ∈ cut (splitsAt st.conf time) (halfFull st.conf time) []
      kp.enabledPairs, (messageOf st.conf time segment).1 = segment.flatMap (line time) := by
    intro segment hsegment
    show bytesOf st.conf time segment = _
    rw [bytesOf_ascii hfmt, printed, if_pos (flatMap_line_lt hfmt hlines hsegment)]
  refine ⟨hok, _, hmsgs, ?_, ?_⟩
  · have hflatten := cut_flatten (splitsAt st.conf time) (halfFull st.conf time) []
      kp.enabledPairs
    rw [List.nil_append] at hflatten
    rw [Ascii.kpFlush_output, plan, planFrom, List.map_map]
    generalize cut (splitsAt st.conf time) (halfFull st.conf time) [] kp.enabledPairs = segments
      at hpayload hflatten ⊢
    have hpayloads : segments.map (Prod.fst ∘ messageOf st.conf time)
        = segments.map (List.flatten ∘ List.map (line time)) := List.map_congr_left hpayload
    rw [hpayloads, ← hflatten, List.flatMap_def, List.map_flatten, List.flatten_flatten,
      List.map_map]
    rfl
  · intro m hm
    obtain ⟨segment, hsegment, rfl⟩ := List.mem_map.mp hm
    rw [hpayload segment hsegment]
    have hne := ne_nil_of_mem_cut _ _ hsegment
    refine ⟨?_, segment, hne, infix_of_mem_cut _ _ hsegment, rfl⟩
    obtain ⟨r, rest, rfl⟩ := List.exists_cons_of_ne_nil hne
    have hpos := line_pos time r
    rw [List.flatMap_cons]
    exact List.append_ne_nil_of_left_ne_nil (List.ne_nil_of_length_pos hpos) _

theorem kpFlush_ascii_threeKeys :
    let st := State.init (smallConf .ascii) [.queueFull]
    let r := kpFlush threeKeys 60 st
    r.1 = .ok ∧ ∃ new, r.2.2.messages = st.messages ++ new ∧
      (Ascii.kpFlush threeKeys 60 ⟨[]⟩).2.2.output = [] ++ (new.map Prod.fst).flatten ∧
      ∀ m ∈ new, m.1 ≠ [] ∧ WholeLines 60 threeKeys.enabledPairs m.1 :=
  kpFlush_ascii rfl rfl (by decide) (by decide) (by decide) ⟨[]⟩

end Kafka

end Libtimeseries
