import Libtimeseries.Base.Runs
import Libtimeseries.Base.Scanning
import Libtimeseries.TskProxy

/-!
# The configuration file (`parse_config_file`, `is_valid_config`)

A flat mapping is read token by token. A scalar in key position says where the
next value goes, by way of one of two pointers: `textp` for strings and `intp`
for numbers. A scalar in value position goes through `textp` if that is set,
else through `intp`, and clears the pointer it went through.

- the scanner is given by the tokens it produces: after them, be it that the
  stream has ended or that the file is malformed, it returns empty tokens for
  ever;
- a scalar is what the string functions see of it, up to the first NUL;
- the numbers are static variables, so the caller gives the initial ones;
- `key` and `trace` observe the loop: the last scalar in key position, and the
  assignments made.
-/

namespace Libtimeseries

open ByteLib

namespace TskProxy

/-- `MAX_FILTERS` -/
def maxFilters : Nat := 1024

/-- The tokens of libyaml, as far as the loop tells them apart. -/
inductive Token where
  | key
  | value
  | scalar (tk : CString)
  | streamEnd
  /-- the empty token -/
  | noToken
  /-- a stream start, the start or end of a block, and so on -/
  | other
deriving DecidableEq

/-- The options that are strings, the filters apart. -/
inductive TextOption where
  | timeseriesBackend
  | timeseriesDbatsOpts
  | kafkaBrokers
  | kafkaTopicPrefix
  | kafkaChannel
  | kafkaConsumerGroup
  | kafkaOffset
  | statsTsBackend
  | statsTsOpts
deriving DecidableEq

/-- The options that are numbers: `log_level` and `stats_interval`. -/
inductive IntOption where
  | logLevel
  | statsInterval
deriving DecidableEq

/-- What a scalar in key position can be. -/
inductive KeyOption where
  | int (o : IntOption)
  | filterPrefix
  | text (o : TextOption)
  | unsupported
deriving DecidableEq

/-- What a scalar in key position is compared with, in order. -/
def keyTable : List (CString × KeyOption) :=
  [(CString.ofAscii "log-level", .int .logLevel),
    (CString.ofAscii "filter-prefix", .filterPrefix),
    -- timeseries section
    (CString.ofAscii "timeseries-backend", .text .timeseriesBackend),
    (CString.ofAscii "timeseries-dbats-opts", .text .timeseriesDbatsOpts),
    -- kafka section
    (CString.ofAscii "kafka-brokers", .text .kafkaBrokers),
    (CString.ofAscii "kafka-topic-prefix", .text .kafkaTopicPrefix),
    (CString.ofAscii "kafka-channel", .text .kafkaChannel),
    (CString.ofAscii "kafka-consumer-group", .text .kafkaConsumerGroup),
    (CString.ofAscii "kafka-offset", .text .kafkaOffset),
    -- stats section
    (CString.ofAscii "stats-interval", .int .statsInterval),
    (CString.ofAscii "stats-ts-backend", .text .statsTsBackend),
    (CString.ofAscii "stats-ts-opts", .text .statsTsOpts)]

def keyOption (tk : CString) : KeyOption :=
  ((keyTable.find? fun r => r.1 = tk).map Prod.snd).getD .unsupported

/-- `tsk_config_t`, with the first `filters_cnt` filters. -/
structure TskConfig where
  text : TextOption → Option CString
  filters : List (Option CString)
  filterLens : List Nat
  kafkaChanlen : Nat

/-- What `textp` can point to. -/
inductive TextTarget where
  | option (o : TextOption)
  | filter (i : Nat)

/-- An assignment: what it was to, the last scalar in key position, and the scalar
in value position that was assigned. -/
inductive Assignment where
  | text (target : TextTarget) (key tk : CString)
  | int (target : IntOption) (key tk : CString)

/-- The variables of `parse_config_file`. -/
structure ParseState where
  tskCfg : TskConfig
  /-- `log_level` and `stats_interval` -/
  ints : IntOption → Int32
  textp : Option TextTarget
  intp : Option IntOption
  /-- `state` is 1 -/
  inValue : Bool
  key : CString
  trace : List Assignment

/-- The variables before the first token. -/
def ParseState.init (ints : IntOption → Int32) : ParseState where
  tskCfg := ⟨fun _ => none, [], [], 0⟩
  ints := ints
  textp := none
  intp := none
  inValue := false
  key := CString.ofAscii ""
  trace := []

/-- `*textp = ..` -/
def TskConfig.assign (c : TskConfig) (tk : CString) : TextTarget → TskConfig
  | .option o => { c with text := Function.update c.text o (some tk) }
  | .filter i => { c with filters := c.filters.set i (some tk) }

namespace ParseState

/-- A scalar in key position. -/
def keyScalar (s : ParseState) (tk : CString) : Ret × ParseState :=
  let s := { s with key := tk }
  match keyOption tk with
  | .int o => (.ok, { s with intp := some o })
  | .filterPrefix =>
    let n := s.tskCfg.filters.length
    if n < maxFilters then
      (.ok, { s with
        tskCfg := { s.tskCfg with filters := s.tskCfg.filters ++ [none] }
        textp := some (.filter n) })
    else
      (.stop .assertFailed, s)
  | .text o => (.ok, { s with textp := some (.option o) })
  -- ignoring unsupported config key
  | .unsupported => (.ok, s)

/-- A scalar in value position. -/
def valueScalar (s : ParseState) (tk : CString) : ParseState :=
  match s.textp with
  | some target =>
    { s with
      tskCfg := s.tskCfg.assign tk target
      textp := none
      trace := s.trace ++ [.text target s.key tk] }
  | none =>
    match s.intp with
    | some target =>
      { s with
        ints := Function.update s.ints target (atoi tk.bytes)
        intp := none
        trace := s.trace ++ [.int target s.key tk] }
    | none => s

/-- The `switch` of the token loop. -/
def switch (s : ParseState) : Token → Ret × ParseState
  | .key => (.ok, { s with inValue := false })
  | .value => (.ok, { s with inValue := true })
  | .scalar tk => if s.inValue then (.ok, s.valueScalar tk) else s.keyScalar tk
  | .streamEnd => (.ok, s)
  | .noToken => (.ok, s)
  | .other => (.ok, s)

theorem switch_key {s : ParseState} (h : s.inValue = false) (tk : CString) :
    s.switch (.scalar tk) = s.keyScalar tk :=
  if_neg (by rw [h]; decide)

theorem switch_value {s : ParseState} (h : s.inValue = true) (tk : CString) :
    s.switch (.scalar tk) = (.ok, s.valueScalar tk) :=
  if_pos h

end ParseState

/-- `yaml_parser_scan`, with the tokens that are left. -/
def yamlParserScan : List Token → Token × List Token
  | [] => (.noToken, [])
  | t :: ts => (t, ts)

/-- The token loop. It does not look at what the scanner returns. -/
def tokenLoop : Nat → List Token → ParseState → Ret × ParseState
  | 0, _, s => (.stop .noReturn, s)
  | fuel + 1, ts, s =>
    let scan := yamlParserScan ts
    andThen (s.switch scan.1) fun s =>
      if scan.1 ≠ .streamEnd then tokenLoop fuel scan.2 s else (.ok, s)

/-- The lengths of the channel name and of the filters: `strlen` of a filter that
was given no value is one of NULL. -/
def ParseState.lengths (s : ParseState) : Ret × ParseState :=
  let kafkaChanlen := ((s.tskCfg.text .kafkaChannel).map CString.strlen).getD
    s.tskCfg.kafkaChanlen
  if s.tskCfg.filters.all Option.isSome then
    (.ok, { s with
      tskCfg := { s.tskCfg with
        kafkaChanlen := kafkaChanlen
        filterLens := s.tskCfg.filters.map fun f => (f.map CString.strlen).getD 0 } })
  else
    (.stop .nullDeref, { s with tskCfg := { s.tskCfg with kafkaChanlen := kafkaChanlen } })

/-- `parse_config_file`: `ready` tells if the configuration and the parser can be
allocated and the file can be opened. -/
def parseConfigFile (ready : Bool) (fuel : Nat) (tokens : List Token) (ints : IntOption → Int32) :
    Ret × ParseState :=
  if ready then andThen (tokenLoop fuel tokens (.init ints)) ParseState.lengths
  else (.fail, .init ints)

/-- The options `is_valid_config` requires, in its order. -/
def requiredOptions : List TextOption :=
  [.timeseriesBackend, .timeseriesDbatsOpts, .kafkaBrokers, .kafkaTopicPrefix, .kafkaChannel,
    .kafkaConsumerGroup, .kafkaOffset, .statsTsBackend, .statsTsOpts]

/-- The option that is reported as not provided. -/
def TskConfig.notProvided (c : TskConfig) : Option TextOption :=
  requiredOptions.find? fun o => (c.text o).isNone

/-- `is_valid_config` returns 0. -/
def isValidConfig (c : TskConfig) : Bool := c.notProvided.isNone

/-! ## Names -/

/-- The name of an option in the file. -/
def TextOption.name : TextOption → CString
  | .timeseriesBackend => CString.ofAscii "timeseries-backend"
  | .timeseriesDbatsOpts => CString.ofAscii "timeseries-dbats-opts"
  | .kafkaBrokers => CString.ofAscii "kafka-brokers"
  | .kafkaTopicPrefix => CString.ofAscii "kafka-topic-prefix"
  | .kafkaChannel => CString.ofAscii "kafka-channel"
  | .kafkaConsumerGroup => CString.ofAscii "kafka-consumer-group"
  | .kafkaOffset => CString.ofAscii "kafka-offset"
  | .statsTsBackend => CString.ofAscii "stats-ts-backend"
  | .statsTsOpts => CString.ofAscii "stats-ts-opts"

def IntOption.name : IntOption → CString
  | .logLevel => CString.ofAscii "log-level"
  | .statsInterval => CString.ofAscii "stats-interval"

def filterName : CString := CString.ofAscii "filter-prefix"

def KeyOption.name? : KeyOption → Option CString
  | .int o => some o.name
  | .filterPrefix => some filterName
  | .text o => some o.name
  | .unsupported => none

/-- The names of the table are those of the options. -/
theorem keyTable_names : ∀ r ∈ keyTable, r.2.name? = some r.1 := by
  decide +kernel

theorem keyOption_name {tk : CString} {k : KeyOption} (h : keyOption tk = k)
    (hk : k ≠ .unsupported) : k.name? = some tk := by
  subst h
  unfold keyOption at hk ⊢
  cases hfind : keyTable.find? fun r => r.1 = tk with
  | none =>
    rw [hfind] at hk
    exact absurd rfl hk
  | some r =>
    have hname := keyTable_names r (List.mem_of_find?_eq_some hfind)
    have htk : r.1 = tk := by simpa using List.find?_some hfind
    rw [htk] at hname
    exact hname

theorem keyOption_eq_text {tk : CString} {o : TextOption} :
    keyOption tk = .text o ↔ tk = o.name := by
  constructor
  · intro h
    exact (Option.some.inj (keyOption_name h (by rintro ⟨⟩))).symm
  · rintro rfl
    cases o <;> decide +kernel

theorem keyOption_eq_int {tk : CString} {o : IntOption} :
    keyOption tk = .int o ↔ tk = o.name := by
  constructor
  · intro h
    exact (Option.some.inj (keyOption_name h (by rintro ⟨⟩))).symm
  · rintro rfl
    cases o <;> decide +kernel

theorem keyOption_eq_filterPrefix {tk : CString} :
    keyOption tk = .filterPrefix ↔ tk = filterName := by
  constructor
  · intro h
    exact (Option.some.inj (keyOption_name h (by rintro ⟨⟩))).symm
  · rintro rfl
    decide +kernel

/-- All strings are required. -/
theorem isValidConfig_iff (c : TskConfig) :
    isValidConfig c = true ↔ ∀ o, c.text o ≠ none := by
  have hall : ∀ o, o ∈ requiredOptions := by
    intro o
    cases o <;> decide
  rw [isValidConfig, TskConfig.notProvided, Option.isNone_iff_eq_none, List.find?_eq_none]
  constructor
  · intro h o hnone
    exact h o (hall o) (by rw [hnone]; rfl)
  · intro h o _ hnone
    exact h o (Option.isNone_iff_eq_none.mp hnone)

end TskProxy

end Libtimeseries
