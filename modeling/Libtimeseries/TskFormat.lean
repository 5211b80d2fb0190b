import Libtimeseries.Base.Bytes

/-!
# The TSK wire format

A message is a header (magic, version, time, channel) followed by records
(key, value), all numbers big-endian and all strings preceded by a 16-bit
length. This is the format as a reference; the writer of the Kafka backend and
the reader of the proxy are each proved against it.
-/

namespace Libtimeseries

open ByteLib

namespace Tsk

/-- A message header. -/
def header (magic : Bytes) (time : UInt32) (channel : Bytes) : Bytes :=
  magic ++ [0] ++ beBytes 4 time.toNat ++ beBytes 2 channel.length ++ channel

/-- One record. -/
def record (r : Bytes × UInt64) : Bytes :=
  beBytes 2 r.1.length ++ r.1 ++ beBytes 8 r.2.toNat

/-- The records of a message. -/
def body (rs : List (Bytes × UInt64)) : Bytes := rs.flatMap record

/-- A message. -/
def message (magic : Bytes) (time : UInt32) (channel : Bytes) (rs : List (Bytes × UInt64)) :
    Bytes :=
  header magic time channel ++ body rs

/-- The magic string `TSKBATCH`. -/
def batchMagic : Bytes := [84, 83, 75, 66, 65, 84, 67, 72]

@[simp] theorem header_length (magic : Bytes) (time : UInt32) (channel : Bytes) :
    (header magic time channel).length = magic.length + 7 + channel.length := by
  simp only [header, List.length_append, beBytes_length, List.length_singleton]

@[simp] theorem record_length (r : Bytes × UInt64) : (record r).length = r.1.length + 10 := by
  simp only [record, List.length_append, beBytes_length]
  omega

@[simp] theorem body_nil : body [] = [] := rfl

@[simp] theorem body_cons (r : Bytes × UInt64) (rs : List (Bytes × UInt64)) :
    body (r :: rs) = record r ++ body rs := rfl

theorem message_concat (magic : Bytes) (time : UInt32) (channel : Bytes)
    (rs : List (Bytes × UInt64)) (r : Bytes × UInt64) :
    message magic time channel (rs ++ [r]) = message magic time channel rs ++ record r := by
  simp [message, body]

/-! ## The format is unambiguous -/

theorem beBytes_inj {w a b : Nat} (ha : a < 256 ^ w) (hb : b < 256 ^ w)
    (h : beBytes w a = beBytes w b) : a = b := by
  rw [← beNat_beBytes ha, h, beNat_beBytes hb]

theorem record_append_inj {r r' : Bytes × UInt64} {rest rest' : Bytes} (hr : r.1.length < 65536)
    (hr' : r'.1.length < 65536) (h : record r ++ rest = record r' ++ rest') :
    r = r' ∧ rest = rest' := by
  simp only [record, List.append_assoc] at h
  -- field by field: each length is known when its field is reached
  obtain ⟨hlen, h⟩ := List.append_inj h (by rw [beBytes_length, beBytes_length])
  obtain ⟨hkey, h⟩ := List.append_inj h (beBytes_inj (w := 2) hr hr' hlen)
  obtain ⟨hvalue, hrest⟩ := List.append_inj h (by rw [beBytes_length, beBytes_length])
  have hnat : r.2.toNat = r'.2.toNat :=
    beBytes_inj (w := 8) r.2.toNat_lt r'.2.toNat_lt hvalue
  exact ⟨Prod.ext hkey (UInt64.toNat_inj.mp hnat), hrest⟩

theorem record_ne_nil (r : Bytes × UInt64) (rest : Bytes) : record r ++ rest ≠ [] := by
  intro h
  have := congrArg List.length h
  rw [List.length_append, record_length, List.length_nil] at this
  omega

theorem body_inj {rs rs' : List (Bytes × UInt64)} (hrs : ∀ r ∈ rs, r.1.length < 65536)
    (hrs' : ∀ r ∈ rs', r.1.length < 65536) (h : body rs = body rs') : rs = rs' := by
  induction rs generalizing rs' with
  | nil =>
    cases rs' with
    | nil => rfl
    | cons r' rs' => exact absurd h.symm (record_ne_nil r' (body rs'))
  | cons r rs ih =>
    cases rs' with
    | nil => exact absurd h (record_ne_nil r (body rs))
    | cons r' rs' =>
      obtain ⟨hr, htail⟩ := List.forall_mem_cons.mp hrs
      obtain ⟨hr', htail'⟩ := List.forall_mem_cons.mp hrs'
      obtain ⟨heq, hbody⟩ : r = r' ∧ body rs = body rs' := record_append_inj hr hr' h
      rw [heq, ih htail htail' hbody]

/-- Messages of one channel with the same bytes have the same contents. -/
theorem message_inj {magic channel : Bytes} {time time' : UInt32} {rs rs' : List (Bytes × UInt64)}
    (hrs : ∀ r ∈ rs, r.1.length < 65536) (hrs' : ∀ r ∈ rs', r.1.length < 65536)
    (h : message magic time channel rs = message magic time' channel rs') :
    time = time' ∧ rs = rs' := by
  obtain ⟨hheader, hbody⟩ := List.append_inj h (by rw [header_length, header_length])
  simp only [header, List.append_assoc] at hheader
  have htimes := List.append_cancel_left (List.append_cancel_left hheader)
  obtain ⟨htime, -⟩ := List.append_inj htimes (by rw [beBytes_length, beBytes_length])
  have hnat : time.toNat = time'.toNat :=
    beBytes_inj (w := 4) time.toNat_lt time'.toNat_lt htime
  exact ⟨UInt32.toNat_inj.mp hnat, body_inj hrs hrs' hbody⟩

end Tsk

end Libtimeseries
