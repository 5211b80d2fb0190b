import Libtimeseries.TskMessage

/-!
# The header checks of the proxy

`handle_message` checks the length of a message, its version, and the length and
content of its channel name. The names below are the parts of an arbitrary
payload as it reads them; `handleMessage_eq` is the function in these terms.
-/

namespace Libtimeseries

open ByteLib

namespace TskProxy

variable {W : Type}

/-- `time` -/
def headerTime (payload : Bytes) : UInt32 :=
  UInt32.ofNat (beNat ((payload.drop (headerMagicLen + 1)).take 4))

/-- `chanlen` -/
def chanlen (payload : Bytes) : Nat :=
  beNat ((payload.drop (headerMagicLen + 1 + 4)).take 2)

/-- The channel name on the wire. -/
def wireChannel (payload : Bytes) : Bytes := (payload.drop headerLen).take (chanlen payload)

/-- What is behind the header. -/
def recordBytes (payload : Bytes) : Bytes := payload.drop (headerLen + chanlen payload)

/-- Where the record loop starts. -/
def recordCursor (payload : Bytes) : Cursor :=
  ⟨headerLen + chanlen payload, (payload.length : Int) - headerLen - chanlen payload⟩

/-- The header is complete, and of the version that is expected. -/
structure HeaderComplete (payload : Bytes) : Prop where
  length : headerLen + chanlen payload ≤ payload.length
  version : payload[headerMagicLen]?.getD 0 = batchVersion

/-- The comparison of the channel names: as far as both go. -/
def ChannelAgrees (cfg : Config) (payload : Bytes) : Prop :=
  let n := min (chanlen payload) cfg.kafkaChannel.strlen
  (wireChannel payload).take n = cfg.kafkaChannel.bytes.take n

/-- The message is accepted. -/
def Accepts (cfg : Config) (payload : Bytes) : Prop :=
  HeaderComplete payload ∧ ChannelAgrees cfg payload

instance (payload : Bytes) : Decidable (HeaderComplete payload) :=
  decidable_of_iff
    (headerLen + chanlen payload ≤ payload.length ∧
      payload[headerMagicLen]?.getD 0 = batchVersion)
    ⟨fun h => ⟨h.1, h.2⟩, fun h => ⟨h.length, h.version⟩⟩

instance (cfg : Config) (payload : Bytes) : Decidable (Accepts cfg payload) :=
  inferInstanceAs (Decidable (HeaderComplete payload ∧
    (wireChannel payload).take (min (chanlen payload) cfg.kafkaChannel.strlen)
      = cfg.kafkaChannel.bytes.take (min (chanlen payload) cfg.kafkaChannel.strlen)))

/-- How `handle_message` ends for a message that is not accepted: if nothing but the channel
is wrong, in the `LOG_ERROR` about it. -/
def Config.rejects (cfg : Config) (payload : Bytes) : Ret :=
  if HeaderComplete payload then cfg.logUnknownChannel else .ok

theorem rejects_cases (cfg : Config) (payload : Bytes) :
    cfg.rejects payload = .ok ∨ cfg.rejects payload = .stop .badPointer := by
  unfold Config.rejects Config.logUnknownChannel
  split_ifs
  · exact .inr rfl
  · exact .inl rfl
  · exact .inl rfl

theorem wireChannel_length {payload : Bytes} (h : HeaderComplete payload) :
    (wireChannel payload).length = chanlen payload := by
  have := h.length
  rw [wireChannel, List.length_take_of_le]
  rw [List.length_drop]
  omega

theorem recordCursor_at {payload : Bytes} (h : HeaderComplete payload) :
    (recordCursor payload).At payload (recordBytes payload) where
  buf := rfl
  remain := by
    have := h.length
    rw [recordBytes, List.length_drop]
    show (payload.length : Int) - headerLen - chanlen payload = _
    omega

/-- The bytes that are compared. -/
theorem channel_read (payload : Bytes) (n : Nat) {remain : Int} :
    (⟨headerLen, remain⟩ : Cursor).read payload (min (chanlen payload) n)
      = (wireChannel payload).take (min (chanlen payload) n) := by
  rw [Cursor.read, wireChannel, List.take_take, Nat.min_comm (chanlen payload) n, Nat.min_assoc,
    Nat.min_self]

/-- What `handle_message` does with any payload. -/
theorem handleMessage_eq (p : Proxy W) (payload : Bytes) (s : State W) :
    p.handleMessage payload s =
      if Accepts p.cfg payload then
        andThen (p.beginRecords payload (headerTime payload) s) fun s =>
          recordLoop p.cfg payload (payload.length + 1) (recordCursor payload) s
      else
        (p.cfg.rejects payload, s.log .error) := by
  have hlen : headerMagicLen + 1 + 4 + 2 = headerLen := rfl
  have hchan : beNat ((payload.drop (headerMagicLen + 1 + 4)).take 2) = chanlen payload := rfl
  unfold Proxy.handleMessage
  dsimp only
  rw [hlen, hchan, channel_read]
  by_cases hshort : (payload.length : Int) < headerLen
  · have hnot : ¬ HeaderComplete payload := by
      intro h
      have := h.length
      omega
    rw [if_pos hshort, if_neg (fun h : Accepts p.cfg payload => hnot h.1), Config.rejects,
      if_neg hnot]
  rw [if_neg hshort]
  by_cases hversion : payload[headerMagicLen]?.getD 0 ≠ batchVersion
  · have hnot : ¬ HeaderComplete payload := fun h => hversion h.version
    rw [if_pos hversion, if_neg (fun h : Accepts p.cfg payload => hnot h.1), Config.rejects,
      if_neg hnot]
  rw [if_neg hversion]
  by_cases hchanlen : (payload.length : Int) - headerLen < chanlen payload
  · have hnot : ¬ HeaderComplete payload := by
      intro h
      have := h.length
      omega
    rw [if_neg (fun h : Accepts p.cfg payload => hnot h.1), Config.rejects, if_neg hnot]
    exact if_pos hchanlen
  have hcomplete : HeaderComplete payload := ⟨by omega, not_not.mp hversion⟩
  refine (if_neg hchanlen).trans ?_
  by_cases hagrees : ChannelAgrees p.cfg payload
  · rw [if_pos (show Accepts p.cfg payload from ⟨hcomplete, hagrees⟩)]
    exact if_neg (not_not.mpr hagrees)
  · rw [if_neg (fun h : Accepts p.cfg payload => hagrees h.2), Config.rejects, if_pos hcomplete]
    exact if_pos hagrees

end TskProxy

end Libtimeseries
