import Libtimeseries.TskProxyLoop

/-!
# Well-formed messages

What `handle_message` does with a message that is encoded as the format says and
meant for this proxy: it calls `maybe_flush` with the time of the message, and
then writes the records that pass the filters, in order.
-/

namespace Libtimeseries

open ByteLib LastWrite

namespace TskProxy

variable {W : Type}

/-- Does a key pass the filters: are there none, or does the key begin with one? -/
def Config.passes (cfg : Config) (key : Bytes) : Bool :=
  cfg.filters = [] || cfg.filters.any fun filter => filter.bytes.isPrefixOf key

/-- The records that pass the filters. -/
def Config.passing (cfg : Config) (rs : List (Bytes × UInt64)) : List (Bytes × UInt64) :=
  rs.filter fun r => cfg.passes r.1

theorem Config.passing_append (cfg : Config) (rs rs' : List (Bytes × UInt64)) :
    cfg.passing (rs ++ rs') = cfg.passing rs ++ cfg.passing rs' :=
  List.filter_append rs rs'

/-- The filter loop looks for a prefix. -/
theorem Config.matches_eq (cfg : Config) (key : CString) :
    cfg.matches key key.strlen = cfg.passes key.bytes := by
  unfold Config.matches Config.passes
  congr 2
  funext filter
  rw [Bool.eq_iff_iff, Bool.and_eq_true, strncmpEq_strlen, decide_eq_true_eq,
    List.isPrefixOf_iff_prefix]
  constructor
  · rintro ⟨-, h⟩
    exact h
  · intro h
    exact ⟨h.length_le, h⟩

/-- A well-formed message for a proxy. Its length fits an `int`, as that of every
message in Kafka does. -/
structure Message (cfg : Config) where
  magic : Bytes
  time : UInt32
  channel : Bytes
  records : List (Bytes × UInt64)
  magic_length : magic.length = headerMagicLen
  channel_lt : channel.length < 2 ^ 16
  /-- the header is accepted: the channel agrees with the configured one as far
  as both go -/
  accepted : channel.take (min channel.length cfg.kafkaChannel.strlen)
    = cfg.kafkaChannel.bytes.take (min channel.length cfg.kafkaChannel.strlen)
  keys : ∀ r ∈ records, (0 : UInt8) ∉ r.1 ∧ r.1.length < keyBufLen
  size_lt : (Tsk.message magic time channel records).length < 2 ^ 31

theorem batchMagic_length : Tsk.batchMagic.length = headerMagicLen := rfl

/-- The bytes of a message. -/
def Message.payload {cfg : Config} (m : Message cfg) : Bytes :=
  Tsk.message m.magic m.time m.channel m.records

/-! ## Records -/

/-- An encoded record is found. -/
theorem finds_record {r : Bytes × UInt64} (hlen : r.1.length < keyBufLen) (rest : Bytes) :
    Finds (Tsk.record r ++ rest) (.record (CString.ofBytes r.1) r.1.length r.2) rest := by
  have hkey : r.1.length = beNat (beBytes 2 r.1.length) := by
    rw [beNat_beBytes]
    have : keyBufLen = 1024 := rfl
    omega
  have hvalue : UInt64.ofNat (beNat (beBytes 8 r.2.toNat)) = r.2 := by
    rw [beNat_beBytes (by have := r.2.toNat_lt; omega), UInt64.ofNat_toNat]
  have h : Finds (beBytes 2 r.1.length ++ (r.1 ++ (beBytes 8 r.2.toNat ++ rest)))
      (.record (CString.ofBytes r.1) r.1.length (UInt64.ofNat (beNat (beBytes 8 r.2.toNat))))
      rest :=
    .record (beBytes_length 2 _) hkey hlen (beBytes_length 8 _)
  rw [hvalue] at h
  rw [Tsk.record, List.append_assoc, List.append_assoc]
  exact h

/-- From `s` to `s'` exactly the pairs `rs` were written to the key package. -/
structure Applies (s s' : State W) (rs : List (Bytes × UInt64)) : Prop where
  wf : s'.WellFormed
  env : s'.env = s.env
  time : s'.currentTime = s.currentTime
  trace : s'.trace = s.trace ++ rs.map fun r => .apply (CString.ofBytes r.1) r.2
  holds : ∀ writes, s.kp.Holds writes → s'.kp.Holds (writes ++ rs)

theorem Applies.refl {s : State W} (h : s.WellFormed) : Applies s s [] where
  wf := h
  env := rfl
  time := rfl
  trace := by simp
  holds writes hw := by rwa [List.append_nil]

theorem Applies.trans {s s' s'' : State W} {rs rs' : List (Bytes × UInt64)} (h : Applies s s' rs)
    (h' : Applies s' s'' rs') : Applies s s'' (rs ++ rs') where
  wf := h'.wf
  env := h'.env.trans h.env
  time := h'.time.trans h.time
  trace := by rw [h'.trace, h.trace, List.map_append, List.append_assoc]
  holds writes hw := by
    rw [← List.append_assoc]
    exact h'.holds _ (h.holds _ hw)

/-- `parse_key_value` in front of a record. -/
theorem parseKeyValue_record (cfg : Config) {c : Cursor} {payload rest : Bytes}
    {r : Bytes × UInt64} (hat : c.At payload (Tsk.record r ++ rest)) (hnul : (0 : UInt8) ∉ r.1)
    (hlen : r.1.length < keyBufLen) {s : State W} (hwf : s.WellFormed) :
    ∃ c' s', parseKeyValue cfg payload c s = (.ok, c', s') ∧ c'.At payload rest ∧
      Applies s s' (cfg.passing [r]) := by
  obtain ⟨c', hread, hat'⟩ := readRecord_spec hat (finds_record hlen rest)
  have hkey : (CString.ofBytes r.1).bytes = r.1 := cstr_of_nulFree hnul
  have hmatches : cfg.matches (CString.ofBytes r.1) r.1.length = cfg.passes r.1 := by
    rw [← congrArg cfg.passes hkey, ← cfg.matches_eq, CString.strlen, hkey]
  unfold parseKeyValue
  rw [hread]
  dsimp only
  rw [hmatches]
  cases hpasses : cfg.passes r.1 with
  | false =>
    refine ⟨c', s, rfl, hat', ?_⟩
    rw [Config.passing, List.filter_cons_of_neg (by simp [hpasses])]
    exact .refl hwf
  | true =>
    obtain ⟨hok, hwrites⟩ := writeKeyValue_spec hwf.kp hwf.names (CString.ofBytes r.1) r.2
    rw [if_pos rfl, hok]
    refine ⟨c', _, rfl, hat', ?_⟩
    rw [Config.passing, List.filter_cons_of_pos (by simp [hpasses])]
    refine ⟨(hwf.write _ _).log _, rfl, rfl, rfl, ?_⟩
    intro writes hw
    rw [hkey] at hwrites
    exact hwrites.holds hw

/-- The record loop on encoded records. -/
theorem recordLoop_body (cfg : Config) {payload : Bytes} {rs : List (Bytes × UInt64)}
    (hkeys : ∀ r ∈ rs, (0 : UInt8) ∉ r.1 ∧ r.1.length < keyBufLen) {c : Cursor}
    (hat : c.At payload (Tsk.body rs)) {s : State W} (hwf : s.WellFormed) {fuel : Nat}
    (hfuel : (Tsk.body rs).length < fuel) :
    ∃ s', recordLoop cfg payload fuel c s = (.ok, s') ∧ Applies s s' (cfg.passing rs) := by
  induction rs generalizing c s fuel with
  | nil =>
    obtain ⟨fuel, rfl⟩ := Nat.exists_eq_succ_of_ne_zero (Nat.ne_of_gt (Nat.zero_lt_of_lt hfuel))
    have hremain := hat.remain
    exact ⟨s, if_neg (by rw [hremain]; decide), .refl hwf⟩
  | cons r rs ih =>
    obtain ⟨fuel, rfl⟩ := Nat.exists_eq_succ_of_ne_zero (Nat.ne_of_gt (Nat.zero_lt_of_lt hfuel))
    obtain ⟨⟨hnul, hlen⟩, hkeys'⟩ := List.forall_mem_cons.mp hkeys
    have hremain := hat.remain
    rw [Tsk.body_cons, List.length_append, Tsk.record_length] at hremain hfuel
    obtain ⟨c', s₁, hparse, hat', happ⟩ := parseKeyValue_record cfg hat hnul hlen hwf
    have hfuel' : (Tsk.body rs).length < fuel := by omega
    obtain ⟨s₂, hloop, happ'⟩ := ih hkeys' hat' happ.wf hfuel'
    refine ⟨s₂, ?_, ?_⟩
    · rw [recordLoop, if_pos (by omega), hparse]
      exact hloop
    · rw [← List.singleton_append, cfg.passing_append]
      exact happ.trans happ'

/-! ## The header -/

theorem toInt_ofNat_pos {n : Nat} (hpos : 0 < n) (hlt : n < 2 ^ 31) :
    0 < (Int32.ofNat n).toInt := by
  rw [Int32.toInt_ofNat_of_lt hlt]
  exact_mod_cast hpos

/-- Between header and records only `maybe_flush` and the statistics happen. -/
theorem beginRecords_spec (p : Proxy W) {payload : Bytes} (hpos : 0 < payload.length)
    (hlt : payload.length < 2 ^ 31) (time : UInt32) {s : State W} (h : s.WellFormed) :
    let r := p.beginRecords payload time s
    r.1 = (p.maybeFlush time.toInt32 s).1 ∧
      ∃ new, Extends s r.2 new [.maybeFlush time.toInt32] ∧
        MaybeFlush time.toInt32 s new r.1 r.2 := by
  obtain ⟨new, hext, hflush⟩ := maybeFlush_spec p time.toInt32 h
  unfold Proxy.beginRecords
  generalize p.maybeFlush time.toInt32 s = r at hext hflush ⊢
  obtain ⟨r, s₁⟩ := r
  by_cases hok : r = .ok
  · subst hok
    obtain ⟨st₁, hinc₁, hst₁⟩ := incStat_spec p "messages_cnt" Int.one_pos hext.wf
    have h₁ := hext.wf.withStats hst₁
    obtain ⟨st₂, hinc₂, hst₂⟩ := incStat_spec p "messages_bytes" (toInt_ofNat_pos hpos hlt) h₁
    rw [andThen_ok, hinc₁, andThen_ok, hinc₂]
    refine ⟨rfl, new, ⟨h₁.withStats hst₂, hext.calls, hext.trace⟩, ?_⟩
    cases hflush with
    | stays same htime hkp hcalls => exact .stays same htime hkp hcalls
    | ends hopen hother htime hkp hflushes => exact .ends hopen hother htime hkp hflushes
    | fails hret => exact absurd rfl hret
  · rw [andThen_of_ne hok]
    exact ⟨rfl, new, hext, hflush⟩

theorem Message.payload_length {cfg : Config} (m : Message cfg) :
    m.payload.length = headerLen + m.channel.length + (Tsk.body m.records).length := by
  rw [Message.payload, Tsk.message, List.length_append, Tsk.header_length, m.magic_length]
  rfl

/-- The fields of the header, where `handle_message` reads them. -/
theorem Message.fields {cfg : Config} (m : Message cfg) :
    m.payload[headerMagicLen]? = some 0 ∧
      (m.payload.drop (headerMagicLen + 1)).take 4 = beBytes 4 m.time.toNat ∧
      (m.payload.drop (headerMagicLen + 1 + 4)).take 2 = beBytes 2 m.channel.length ∧
      m.payload.drop (headerMagicLen + 1 + 4 + 2) = m.channel ++ Tsk.body m.records := by
  have hpayload : m.payload = m.magic ++ ([0] ++ (beBytes 4 m.time.toNat ++
      (beBytes 2 m.channel.length ++ (m.channel ++ Tsk.body m.records)))) := by
    simp only [Message.payload, Tsk.message, Tsk.header, List.append_assoc]
  -- peel the fields off one after the other
  have hdrop₁ := congrArg (List.drop m.magic.length) hpayload
  rw [List.drop_left, m.magic_length] at hdrop₁
  have hdrop₂ := congrArg (List.drop 1) hdrop₁
  rw [List.drop_drop, show (1 : Nat) = ([0] : Bytes).length from rfl, List.drop_left] at hdrop₂
  have hdrop₃ := congrArg (List.drop (beBytes 4 m.time.toNat).length) hdrop₂
  rw [List.drop_drop, List.drop_left, beBytes_length] at hdrop₃
  have hdrop₄ := congrArg (List.drop (beBytes 2 m.channel.length).length) hdrop₃
  rw [List.drop_drop, List.drop_left, beBytes_length] at hdrop₄
  refine ⟨?_, ?_, ?_, hdrop₄⟩
  · rw [← Nat.add_zero headerMagicLen, ← List.getElem?_drop, hdrop₁]
    rfl
  · exact (congrArg (List.take 4) hdrop₂).trans
      (List.take_left' (beBytes_length 4 _))
  · exact (congrArg (List.take 2) hdrop₃).trans
      (List.take_left' (beBytes_length 2 _))

/-- The header of a message is accepted, and leaves the cursor in front of the
records. -/
theorem handleMessage_accepted (p : Proxy W) (m : Message p.cfg) (s : State W) :
    ∃ c : Cursor, c.At m.payload (Tsk.body m.records) ∧
      p.handleMessage m.payload s = andThen (p.beginRecords m.payload m.time s) fun s =>
        recordLoop p.cfg m.payload (m.payload.length + 1) c s := by
  obtain ⟨hversion, htime, hchanlen, hrest⟩ := m.fields
  have hlen := m.payload_length
  have hchanlen_lt := m.channel_lt
  have htime' : UInt32.ofNat (beNat (beBytes 4 m.time.toNat)) = m.time := by
    rw [beNat_beBytes (by have := m.time.toNat_lt; omega), UInt32.ofNat_toNat]
  have hchanlen' : beNat (beBytes 2 m.channel.length) = m.channel.length :=
    beNat_beBytes (by omega)
  have hat : (⟨headerMagicLen + 1 + 4 + 2, m.payload.length - headerLen⟩ : Cursor).At m.payload
      (m.channel ++ Tsk.body m.records) := by
    refine ⟨hrest, ?_⟩
    show (m.payload.length : Int) - headerLen = (m.channel ++ Tsk.body m.records).length
    rw [hlen, List.length_append]
    omega
  have hchannel : (⟨headerMagicLen + 1 + 4 + 2, m.payload.length - headerLen⟩ : Cursor).read
      m.payload (min m.channel.length p.cfg.kafkaChannel.strlen)
        = p.cfg.kafkaChannel.bytes.take (min m.channel.length p.cfg.kafkaChannel.strlen) := by
    rw [Cursor.read, hrest, List.take_append_of_le_length (Nat.min_le_left _ _), m.accepted]
  have hheader : ¬ ((m.payload.length : Int) < headerLen) := by omega
  have hchanfits : ¬ ((m.payload.length : Int) - headerLen < m.channel.length) := by omega
  refine ⟨_, hat.skip, ?_⟩
  unfold Proxy.handleMessage
  dsimp only
  rw [hversion, htime, hchanlen, htime', hchanlen', if_neg hheader, if_neg (by simp [batchVersion]),
    if_neg hchanfits, if_neg (not_not.mpr hchannel)]

/-- What `handle_message` does with a well-formed message. It succeeds if
`maybe_flush` does. -/
theorem handleMessage_spec (p : Proxy W) (m : Message p.cfg) {s : State W} (h : s.WellFormed) :
    let r := p.handleMessage m.payload s
    r.1 = (p.maybeFlush m.time.toInt32 s).1 ∧
      ∃ new s₁, Extends s s₁ new [.maybeFlush m.time.toInt32] ∧
        ((r.1 = .ok ∧ MaybeFlush m.time.toInt32 s new .ok s₁ ∧
            Applies s₁ r.2 (p.cfg.passing m.records)) ∨
          (r.1 ≠ .ok ∧ MaybeFlush m.time.toInt32 s new r.1 s₁ ∧ r.2 = s₁)) := by
  obtain ⟨c, hat, hhandle⟩ := handleMessage_accepted p m s
  have hlen := m.payload_length
  have hpos : 0 < m.payload.length := by
    have hheader : headerLen = 15 := rfl
    omega
  have hsize : m.payload.length < 2 ^ 31 := m.size_lt
  obtain ⟨hret, new, hext, hflush⟩ := beginRecords_spec p hpos hsize m.time h
  rw [hhandle]
  generalize p.beginRecords m.payload m.time s = r at hret hext hflush ⊢
  obtain ⟨r, s₁⟩ := r
  by_cases hok : r = .ok
  · subst hok
    obtain ⟨s', hloop, happ⟩ := recordLoop_body p.cfg m.keys hat hext.wf
      (show (Tsk.body m.records).length < m.payload.length + 1 by omega)
    rw [andThen_ok, hloop]
    exact ⟨hret, new, s₁, hext, .inl ⟨rfl, hflush, happ⟩⟩
  · rw [andThen_of_ne hok]
    exact ⟨hret, new, s₁, hext, .inr ⟨hok, hflush, rfl⟩⟩

end TskProxy

end Libtimeseries
