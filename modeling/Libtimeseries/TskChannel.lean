import Libtimeseries.TskHeader
import Libtimeseries.TskStats

/-!
# The channel of a message

A proxy is meant to consume the messages of one channel. `handle_message`
compares the channel name on the wire with its own by `bcmp`, over the length of
the shorter of the two, so it takes a message to be its own if either name is a
prefix of the other. A message of any other channel is rejected, but the `LOG_ERROR`
that says so ends the process, and with it the current group, at all log levels that
log anything. The theorem says that these are the only messages that go astray, and
that each of them does: an accepted message is always counted, in `messages_cnt` or,
if the flush before it fails, in `flush_cnt`.

- `OwnChannel`: the message names the channel of the proxy;
- `Skipped`: the message left the package, the statistics, the backend and the
  current group alone, and the program goes on;
- `CutChannel`: one name is a proper prefix of the other;
- `AstrayChannel`: that, or another name, and a log level of 0 or more.
-/

namespace Libtimeseries

open ByteLib LastWrite

namespace TskProxy

variable {W : Type}

/-- The channel name of a complete header is that of the configuration, in length
and content. -/
def OwnChannel (cfg : Config) (payload : Bytes) : Prop :=
  HeaderComplete payload ∧ wireChannel payload = cfg.kafkaChannel.bytes

/-- Nothing was flushed, counted or applied, the group is the same, and `handle_message`
has returned 0. -/
structure Skipped (s : State W) (r : Ret × State W) : Prop where
  returns : r.1 = .ok
  kp : r.2.kp = s.kp
  env : r.2.env = s.env
  statsKp : r.2.statsKp = s.statsKp
  currentTime : r.2.currentTime = s.currentTime

/-- The channel name of a complete header, or that of the configuration, is a
proper prefix of the other. -/
def CutChannel (cfg : Config) (payload : Bytes) : Prop :=
  HeaderComplete payload ∧ wireChannel payload ≠ cfg.kafkaChannel.bytes ∧
    (wireChannel payload <+: cfg.kafkaChannel.bytes ∨
      cfg.kafkaChannel.bytes <+: wireChannel payload)

/-- The channel name of a complete header is not that of the configuration, and one of them
is a prefix of the other or errors are logged. -/
def AstrayChannel (cfg : Config) (payload : Bytes) : Prop :=
  HeaderComplete payload ∧ wireChannel payload ≠ cfg.kafkaChannel.bytes ∧
    (wireChannel payload <+: cfg.kafkaChannel.bytes ∨
      cfg.kafkaChannel.bytes <+: wireChannel payload ∨ logLevelError ≤ cfg.logLevel)

/-! ## The comparison -/

/-- Two lists agree over the length of the shorter one if and only if one is a
prefix of the other. -/
theorem take_min_eq_iff {α : Type} (as bs : List α) :
    as.take (min as.length bs.length) = bs.take (min as.length bs.length) ↔
      as <+: bs ∨ bs <+: as := by
  rcases Nat.le_total as.length bs.length with hle | hle
  · rw [Nat.min_eq_left hle, List.take_length, ← List.prefix_iff_eq_take]
    constructor
    · exact .inl
    · rintro (h | h)
      · exact h
      · exact h.eq_of_length_le hle ▸ List.prefix_rfl
  · rw [Nat.min_eq_right hle, List.take_length, eq_comm, ← List.prefix_iff_eq_take]
    constructor
    · exact .inr
    · rintro (h | h)
      · exact h.eq_of_length_le hle ▸ List.prefix_rfl
      · exact h

theorem channelAgrees_iff (cfg : Config) {payload : Bytes} (h : HeaderComplete payload) :
    ChannelAgrees cfg payload ↔
      wireChannel payload <+: cfg.kafkaChannel.bytes ∨
        cfg.kafkaChannel.bytes <+: wireChannel payload := by
  rw [← take_min_eq_iff, wireChannel_length h]
  rfl

/-- Accepted are the own channel and the cut ones. -/
theorem accepts_iff (cfg : Config) (payload : Bytes) :
    Accepts cfg payload ↔ OwnChannel cfg payload ∨ CutChannel cfg payload := by
  constructor
  · rintro ⟨hcomplete, hagrees⟩
    by_cases hown : wireChannel payload = cfg.kafkaChannel.bytes
    · exact .inl ⟨hcomplete, hown⟩
    · exact .inr ⟨hcomplete, hown, (channelAgrees_iff cfg hcomplete).mp hagrees⟩
  · rintro (⟨hcomplete, hown⟩ | ⟨hcomplete, -, hcut⟩)
    · exact ⟨hcomplete, (channelAgrees_iff cfg hcomplete).mpr (.inl (hown ▸ List.prefix_rfl))⟩
    · exact ⟨hcomplete, (channelAgrees_iff cfg hcomplete).mpr hcut⟩

/-! ## What an accepted message counts -/

/-- The name of a statistic of the proxy. -/
def Proxy.statKey (p : Proxy W) (suffix : String) : CString :=
  statsKey p.statsKeyPrefix (CString.ofAscii suffix)

/-- Statistics with different suffixes are different. -/
theorem statsKey_injective {statsKeyPrefix suffix suffix' : CString}
    (h : statsKey statsKeyPrefix suffix = statsKey statsKeyPrefix suffix') : suffix = suffix' := by
  have hfree : ∀ suffix : CString, (0 : UInt8) ∉ statsKeyPrefix.bytes ++ [46] ++ suffix.bytes := by
    intro suffix hmem
    rcases List.mem_append.mp hmem with hmem | hmem
    · rcases List.mem_append.mp hmem with hmem | hmem
      · exact statsKeyPrefix.nulFree hmem
      · exact absurd (List.mem_singleton.mp hmem) (by decide)
    · exact suffix.nulFree hmem
  have hbytes := congrArg CString.bytes h
  unfold statsKey CString.ofBytes at hbytes
  dsimp only at hbytes
  rw [cstr_of_nulFree (hfree suffix), cstr_of_nulFree (hfree suffix')] at hbytes
  exact CString.ext_iff'.mpr (List.append_cancel_left hbytes)

theorem statKey_ne (p : Proxy W) {suffix suffix' : String}
    (h : CString.ofAscii suffix ≠ CString.ofAscii suffix') : p.statKey suffix ≠ p.statKey suffix' :=
  fun heq => h (statsKey_injective heq)

/-- A statistic that is counted up by 1 is another one. -/
theorem incStatKp_one_ne {kp : Kp} (h : kp.WellFormed) (key : CString) :
    statValue (incStatKp kp key 1).2 key ≠ statValue kp key := by
  rw [incStatKp_statValue h key key Int.one_pos, if_pos rfl]
  exact addToStat_one_ne _

theorem incStatKp_other {kp : Kp} (h : kp.WellFormed) {key k : CString} (hne : key ≠ k)
    (value : Int) : statValue (incStatKp kp key value).2 k = statValue kp k := by
  by_cases hvalue : 0 < value
  · rw [incStatKp_statValue h key k hvalue, if_neg hne]
  · unfold incStatKp
    rw [if_neg hvalue]

/-- The statistics after a group of `n` keys was counted. -/
def Proxy.countGroup (p : Proxy W) (statsKp : Kp) (n : Nat) : Kp :=
  (incStatKp (incStatKp statsKp (p.statKey "flush_cnt") 1).2 (p.statKey "flushed_key_cnt") n).2

theorem countGroup_flushCnt (p : Proxy W) {kp : Kp} (h : kp.WellFormed) (n : Nat) :
    statValue (p.countGroup kp n) (p.statKey "flush_cnt")
      ≠ statValue kp (p.statKey "flush_cnt") := by
  rw [Proxy.countGroup, incStatKp_other (incStatKp_spec h _ Int.one_pos).2
    (statKey_ne p (by decide))]
  exact incStatKp_one_ne h _

theorem countGroup_messagesCnt (p : Proxy W) {kp : Kp} (h : kp.WellFormed) (n : Nat) :
    statValue (p.countGroup kp n) (p.statKey "messages_cnt")
      = statValue kp (p.statKey "messages_cnt") := by
  rw [Proxy.countGroup, incStatKp_other (incStatKp_spec h _ Int.one_pos).2
    (statKey_ne p (by decide)), incStatKp_other h (statKey_ne p (by decide))]

/-- Ending a group counts it, whether or not the flush succeeds. -/
theorem flushGroup_stats (p : Proxy W) {s : State W} (h : s.WellFormed) :
    (p.flushGroup s).2.statsKp = p.countGroup s.statsKp s.kp.enabledSize ∨
      ((p.flushGroup s).1 = .ok ∧ (p.flushGroup s).2.statsKp = s.statsKp) := by
  unfold Proxy.flushGroup
  split
  · next hpos =>
    refine .inl ?_
    obtain ⟨hok₁, hwf₁⟩ := incStatKp_spec h.statsKp (p.statKey "flush_cnt") Int.one_pos
    obtain ⟨hok₂, -⟩ := incStatKp_spec hwf₁ (p.statKey "flushed_key_cnt")
      (show (0 : Int) < s.kp.enabledSize by exact_mod_cast hpos)
    have hinc₁ : p.incStat "flush_cnt" 1 s
        = (.ok, { s with statsKp := (incStatKp s.statsKp (p.statKey "flush_cnt") 1).2 }) := by
      rw [← hok₁]
      rfl
    have hinc₂ : p.incStat "flushed_key_cnt" s.kp.enabledSize
        { s with statsKp := (incStatKp s.statsKp (p.statKey "flush_cnt") 1).2 }
        = (.ok, { s with statsKp := p.countGroup s.statsKp s.kp.enabledSize }) := by
      rw [← hok₂]
      rfl
    rw [hinc₁, andThen_ok, hinc₂, andThen_ok]
    have hkp : (p.kpFlush { s with statsKp := p.countGroup s.statsKp s.kp.enabledSize }).2.statsKp
        = p.countGroup s.statsKp s.kp.enabledSize := rfl
    generalize p.kpFlush _ = r at hkp ⊢
    obtain ⟨r, s'⟩ := r
    cases r with
    | ok => exact hkp
    | fail => exact hkp
    | stop why => exact hkp
  · exact .inr ⟨rfl, rfl⟩

theorem maybeFlush_stats (p : Proxy W) (flushTime : Int32) {s : State W} (h : s.WellFormed) :
    (p.maybeFlush flushTime s).2.statsKp = p.countGroup s.statsKp s.kp.enabledSize ∨
      ((p.maybeFlush flushTime s).1 = .ok ∧
        (p.maybeFlush flushTime s).2.statsKp = s.statsKp) := by
  by_cases hzero : s.currentTime = 0
  · rw [maybeFlush_idle p flushTime hzero]
    exact .inr ⟨rfl, rfl⟩
  by_cases hsame : flushTime = s.currentTime
  · rw [maybeFlush_same p flushTime hzero hsame]
    exact .inr ⟨rfl, rfl⟩
  · rw [maybeFlush_other p flushTime hzero hsame]
    have hstats := flushGroup_stats p (h.log (.maybeFlush flushTime))
    generalize p.flushGroup _ = r at hstats ⊢
    obtain ⟨r, s'⟩ := r
    cases r with
    | ok => exact hstats
    | fail => exact hstats
    | stop why => exact hstats

/-- Before the records of a message are read, a statistic has changed. -/
theorem beginRecords_stats (p : Proxy W) (payload : Bytes) (time : UInt32) {s : State W}
    (h : s.WellFormed) : (p.beginRecords payload time s).2.statsKp ≠ s.statsKp := by
  have hwf₁ := maybeFlush_wellFormed p time.toInt32 h
  have hstats := maybeFlush_stats p time.toInt32 h
  unfold Proxy.beginRecords
  generalize p.maybeFlush time.toInt32 s = r at hwf₁ hstats ⊢
  obtain ⟨r, s₁⟩ := r
  by_cases hr : r = .ok
  · subst hr
    -- the message is counted
    have hold : statValue s₁.statsKp (p.statKey "messages_cnt")
        = statValue s.statsKp (p.statKey "messages_cnt") := by
      rcases hstats with hstats | ⟨-, hstats⟩
      · rw [show s₁.statsKp = _ from hstats, countGroup_messagesCnt p h.statsKp]
      · rw [show s₁.statsKp = _ from hstats]
    obtain ⟨hok, hwf₂⟩ := incStatKp_spec hwf₁.statsKp (p.statKey "messages_cnt") Int.one_pos
    have hinc : p.incStat "messages_cnt" 1 s₁
        = (.ok, { s₁ with statsKp := (incStatKp s₁.statsKp (p.statKey "messages_cnt") 1).2 }) := by
      rw [← hok]
      rfl
    rw [andThen_ok, hinc, andThen_ok]
    intro heq
    refine incStatKp_one_ne hwf₁.statsKp (p.statKey "messages_cnt") ?_
    rw [hold, ← heq]
    exact (incStatKp_other hwf₂ (statKey_ne p (by decide)) _).symm
  · -- the group before it is
    rw [andThen_of_ne hr]
    intro heq
    rcases hstats with hstats | ⟨hok, -⟩
    · refine countGroup_flushCnt p h.statsKp s.kp.enabledSize ?_
      rw [← show s₁.statsKp = _ from hstats, show s₁.statsKp = _ from heq]
    · exact hr hok

/-- The records of a message do not touch the statistics. -/
theorem recordLoop_stats (cfg : Config) (payload : Bytes) (fuel : Nat) (c : Cursor) (s : State W) :
    (recordLoop cfg payload fuel c s).2.statsKp = s.statsKp := by
  induction fuel generalizing c s with
  | zero => rfl
  | succ fuel ih =>
    have hparse : (parseKeyValue cfg payload c s).2.2.statsKp = s.statsKp := by
      unfold parseKeyValue
      split
      · rfl
      · rfl
      · rfl
      · split
        · rfl
        · rfl
    unfold recordLoop
    split
    · generalize parseKeyValue cfg payload c s = r at hparse ⊢
      obtain ⟨r, c', s'⟩ := r
      cases r with
      | ok => exact (ih c' s').trans hparse
      | fail => exact hparse
      | stop why => exact hparse
    · rfl

/-- An accepted message changes the statistics. -/
theorem handleMessage_stats (p : Proxy W) {payload : Bytes} (haccepts : Accepts p.cfg payload)
    {s : State W} (h : s.WellFormed) : (p.handleMessage payload s).2.statsKp ≠ s.statsKp := by
  have hbegin := beginRecords_stats p payload (headerTime payload) h
  rw [handleMessage_eq, if_pos haccepts]
  generalize p.beginRecords payload (headerTime payload) s = r at hbegin ⊢
  obtain ⟨r, s'⟩ := r
  cases r with
  | ok =>
    rw [andThen_ok, recordLoop_stats]
    exact hbegin
  | fail => exact hbegin
  | stop why => exact hbegin

/-- The message is rejected for its channel. -/
def UnknownChannel (cfg : Config) (payload : Bytes) : Prop :=
  HeaderComplete payload ∧ ¬ Accepts cfg payload

/-- It stops the process, if errors are logged. -/
theorem handleMessage_unknown (p : Proxy W) {payload : Bytes} (h : UnknownChannel p.cfg payload)
    (hlevel : logLevelError ≤ p.cfg.logLevel) (s : State W) :
    p.handleMessage payload s = (.stop .badPointer, s.log .error) := by
  rw [handleMessage_eq, if_neg h.2, Config.rejects, if_pos h.1, Config.logUnknownChannel,
    if_pos hlevel]

/-- **Which messages a proxy consumes**: only those of its own channel, except
that it consumes every message whose channel name is cut short, or whose channel
name its own one cuts short; and it passes over the others, except that those of
other channels end the process if errors are logged. -/
theorem handleMessage_channel_iff (p : Proxy W) (payload : Bytes) {s : State W}
    (h : s.WellFormed) :
    (OwnChannel p.cfg payload ∨ Skipped s (p.handleMessage payload s)) ↔
      ¬AstrayChannel p.cfg payload := by
  constructor
  · rintro (hown | hskipped) ⟨hcomplete, hother, hastray⟩
    · exact hother hown.2
    · by_cases haccepts : Accepts p.cfg payload
      · exact handleMessage_stats p haccepts h hskipped.statsKp
      · -- neither name is a prefix of the other
        have hdiffer := fun hcut => haccepts ⟨hcomplete, (channelAgrees_iff p.cfg hcomplete).mpr hcut⟩
        rcases hastray with hwire | hcfg | hlevel
        · exact hdiffer (.inl hwire)
        · exact hdiffer (.inr hcfg)
        · have hreturns := hskipped.returns
          rw [handleMessage_unknown p ⟨hcomplete, haccepts⟩ hlevel] at hreturns
          cases hreturns
  · intro hastray
    by_cases haccepts : Accepts p.cfg payload
    · rcases (accepts_iff p.cfg payload).mp haccepts with hown | ⟨hcomplete, hother, hcut⟩
      · exact .inl hown
      · exact absurd ⟨hcomplete, hother, hcut.imp_right Or.inl⟩ hastray
    · by_cases hown : OwnChannel p.cfg payload
      · exact .inl hown
      · right
        have hok : p.cfg.rejects payload = .ok := by
          unfold Config.rejects
          split
          · next hcomplete =>
            refine if_neg fun hlevel => hastray ⟨hcomplete, ?_, .inr (.inr hlevel)⟩
            exact fun hchannel => hown ⟨hcomplete, hchannel⟩
          · rfl
        rw [handleMessage_eq, if_neg haccepts, hok]
        exact ⟨rfl, rfl, rfl, rfl, rfl⟩

/-- A message with one record. -/
def channelMessage (channel : Bytes) : Bytes := Tsk.message Tsk.batchMagic 60 channel [([97], 7)]

theorem handleMessage_channel_iff_own :
    (OwnChannel idleProxy.cfg (channelMessage [99]) ∨
        Skipped (State.init ()) (idleProxy.handleMessage (channelMessage [99]) (State.init ()))) ↔
      ¬AstrayChannel idleProxy.cfg (channelMessage [99]) :=
  handleMessage_channel_iff idleProxy (channelMessage [99]) (State.wellFormed_init ())

/-- The proxy of the channel `c` consumes a message of the channel `cd`. -/
theorem otherChannel_consumed :
    ¬(OwnChannel idleProxy.cfg (channelMessage [99, 100]) ∨
      Skipped (State.init ())
        (idleProxy.handleMessage (channelMessage [99, 100]) (State.init ()))) := by
  rintro (⟨-, hown⟩ | hskipped)
  · exact absurd hown (by decide +kernel)
  · have haccepts : Accepts idleProxy.cfg (channelMessage [99, 100]) := by decide +kernel
    exact handleMessage_stats idleProxy haccepts (State.wellFormed_init ()) hskipped.statsKp

/-- A message of the channel `d` ends it, unless the log level is negative. -/
example :
    (idleProxy.handleMessage (channelMessage [100]) (State.init ())).1 = .stop .badPointer ∧
      (({ idleProxy with cfg := { idleProxy.cfg with logLevel := -1 } } : Proxy Unit).handleMessage
        (channelMessage [100]) (State.init ())).1 = .ok := by
  decide +kernel

end TskProxy

end Libtimeseries
