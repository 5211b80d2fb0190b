import Libtimeseries.Registry
import Libtimeseries.TskConfigStats
import Libtimeseries.TskPipeline
import Libtimeseries.TskStatsNames

/-!
# `main` of the proxy (`tsk-proxy.c`)

`main` reads the configuration file, checks it, connects to Kafka, sets up the data and the
statistics, and calls `run`. Everything up to `run` is `main` below, which ends with the
program that runs and its variables, if it gets so far.

- `main_runs`: how it gets so far;
- `file_decides`: what a program started from a file of a flat mapping does with the data
  is decided by the entries of the file.

Modelling choices: `init_kafka` and the two calls of `timeseries_enable_backend` are
parameters, as are libyaml's tokens and what is opened and allocated.
-/

namespace Libtimeseries

open ByteLib LastWrite RunLib

namespace TskProxy

open Kafka (Wrote ProducerCall)

variable {W V : Type}

/-- What `main` finds outside of the program. -/
structure Outside (W V : Type) where
  /-- the configuration and the parser can be allocated, and the file opened -/
  ready : Bool
  /-- `init_kafka` returns a consumer -/
  initKafka : TskConfig → Bool
  /-- the backends that are built in -/
  available : BackendId → Bool
  /-- the backend of the data can be enabled, with these options -/
  enable : BackendId → CString → Bool
  enableStats : BackendId → CString → Bool
  backend : BackendId → Backend W
  statsBackend : BackendId → Backend V
  world : W
  statsWorld : V

/-- How far `main` gets. -/
inductive Started (W V : Type) where
  | exits (rc : Int)
  | stops (why : Stop)
  | runs (m : Program W V) (s : Main W V)

def Started.isRuns : Started W V → Bool
  | runs _ _ => true
  | _ => false

/-- An option behind `is_valid_config`, where none is NULL. -/
def TskConfig.value (c : TskConfig) (o : TextOption) : CString :=
  (c.text o).getD (CString.ofAscii "")

/-- The part of the configuration that messages are compared with. -/
def ParseState.config (s : ParseState) : Config :=
  ⟨s.tskCfg.filters.filterMap id, s.tskCfg.value .kafkaChannel, s.ints .logLevel⟩

/-- The lookup of a backend, and `timeseries_enable_backend`. -/
def setUp (available : BackendId → Bool) (enable : BackendId → CString → Bool)
    (name opts : CString) : Option BackendId :=
  let i : Registry.Instance fun _ => Unit := .init available fun _ => ()
  match i.getBackendByName name with
  | none => none
  | some id => if enable id opts then some id else none

namespace Outside

variable (out : Outside W V)

/-- `init_timeseries`: the backend it sets up. -/
def initTimeseries (c : TskConfig) : Option BackendId :=
  setUp out.available out.enable (c.value .timeseriesBackend) (c.value .timeseriesDbatsOpts)

/-- `init_stats_timeseries`, up to the clock. -/
def initStatsTimeseries (c : TskConfig) : Option BackendId :=
  setUp out.available out.enableStats (c.value .statsTsBackend) (c.value .statsTsOpts)

/-- The rest of `main`, from the statistics' names on. -/
def start (s : ParseState) (statsKeyPrefix : CString) (now : Int) : Started W V :=
  if out.initKafka s.tskCfg then
    match out.initTimeseries s.tskCfg with
    | none => .exits (-1)
    | some id =>
      match out.initStatsTimeseries s.tskCfg with
      | none => .exits (-1)
      | some statsId =>
        let stats : Stats V :=
          ⟨s.ints .statsInterval, statsKeyPrefix, statsId, out.statsBackend statsId⟩
        match stats.initStatsTimeseries true now out.statsWorld with
        | (.stop why, _) => .stops why
        | (.fail, _) => .exits (-1)
        | (.ok, st) =>
          .runs ⟨⟨s.config, statsKeyPrefix, id, out.backend id⟩, stats⟩
            (.init out.world out.statsWorld st.statsTime)
  else
    .exits (-1)

/-- `main`, up to `run`. -/
def main (argc : Nat) (tokens : List Token) (now : Int) : Started W V :=
  if argc ≠ 2 then
    .exits (-1)
  else
    match parseConfigFile out.ready tokens.length tokens fun _ => 0 with
    | (.fail, _) => .exits (-1)
    | (.stop why, _) => .stops why
    | (.ok, s) =>
      if isValidConfig s.tskCfg then
        match createStatsPrefix s.tskCfg with
        | none => .stops .nullDeref
        | some statsKeyPrefix => out.start s statsKeyPrefix now
      else
        .exits (-1)

end Outside

/-! ## Getting as far as `run` -/

/-- The program that runs was set up from an accepted configuration. -/
structure SetUp (out : Outside W V) (st : ParseState) (m : Program W V) (s : Main W V) : Prop where
  names : createStatsPrefix st.tskCfg = some m.proxy.statsKeyPrefix
  kafka : out.initKafka st.tskCfg = true
  proxy : ∃ id, out.initTimeseries st.tskCfg = some id ∧
    m.proxy = ⟨st.config, m.proxy.statsKeyPrefix, id, out.backend id⟩
  stats : ∃ id, out.initStatsTimeseries st.tskCfg = some id ∧
    m.stats = ⟨st.ints .statsInterval, m.proxy.statsKeyPrefix, id, out.statsBackend id⟩
  interval : st.ints .statsInterval ≠ 0
  init : ∃ statsTime, s = .init out.world out.statsWorld statsTime

theorem start_runs {out : Outside W V} {st : ParseState} {statsKeyPrefix : CString} {now : Int}
    {m : Program W V} {s : Main W V} (hnames : createStatsPrefix st.tskCfg = some statsKeyPrefix)
    (h : out.start st statsKeyPrefix now = .runs m s) : SetUp out st m s := by
  unfold Outside.start at h
  split at h
  · next hkafka =>
    cases hid : out.initTimeseries st.tskCfg with
    | none => simp [hid] at h
    | some id =>
      cases hstats : out.initStatsTimeseries st.tskCfg with
      | none => simp [hid, hstats] at h
      | some statsId =>
        rw [hid, hstats] at h
        dsimp only at h
        unfold Stats.initStatsTimeseries at h
        rw [if_pos rfl] at h
        cases hnow : statsIntervalNow (st.ints .statsInterval) now with
        | none => simp [hnow] at h
        | some start =>
          rw [hnow] at h
          cases h
          refine ⟨hnames, hkafka, ⟨id, hid, rfl⟩, ⟨statsId, hstats, rfl⟩, fun hzero => ?_, _, rfl⟩
          rw [statsIntervalNow, if_pos hzero] at hnow
          cases hnow
  · cases h

/-- **How `main` gets as far as `run`.** -/
theorem main_runs {out : Outside W V} {argc : Nat} {tokens : List Token} {now : Int}
    {m : Program W V} {s : Main W V} (h : out.main argc tokens now = .runs m s) :
    ∃ st, parseConfigFile true tokens.length tokens (fun _ => 0) = (.ok, st) ∧
      isValidConfig st.tskCfg = true ∧ SetUp out st m s := by
  unfold Outside.main at h
  split at h
  · cases h
  · cases hready : out.ready with
    | false => simp [hready, parseConfigFile] at h
    | true =>
      rw [hready] at h
      generalize parseConfigFile true tokens.length tokens (fun _ => 0) = r at h ⊢
      obtain ⟨r, st⟩ := r
      cases r with
      | fail => cases h
      | stop why => cases h
      | ok =>
        dsimp only at h
        split at h
        · next hvalid =>
          cases hnames : createStatsPrefix st.tskCfg with
          | none => simp [hnames] at h
          | some statsKeyPrefix =>
            rw [hnames] at h
            exact ⟨st, rfl, hvalid, start_runs hnames h⟩
        · cases h

/-! ## From the file to the database -/

/-- The filters a file gives. -/
def givenFilters (entries : List Entry) : List CString :=
  ((given entries).filter fun w => w.1 = filterName).map Prod.snd

/-- The log level a file gives, which is 0 otherwise. -/
def givenLogLevel (entries : List Entry) : Int32 :=
  ((lastValue IntOption.logLevel.name (given entries)).map fun tk => atoi tk.bytes).getD 0

theorem config_of_ownValues {entries : List Entry} {r : Ret × ParseState}
    (h : OwnValues (fun _ => 0) entries r) {channel : CString}
    (hchannel : lastValue TextOption.kafkaChannel.name (given entries) = some channel) :
    r.2.config = ⟨givenFilters entries, channel, givenLogLevel entries⟩ := by
  rw [ParseState.config, TskConfig.value, h.text, hchannel, h.filters, h.ints, givenLogLevel]
  simp [givenFilters, List.filterMap_map]

/-- The backend that is set up is the one that was named. -/
theorem setUp_named {available : BackendId → Bool} {enable : BackendId → CString → Bool}
    {name opts : CString} {id : BackendId} (h : setUp available enable name opts = some id) :
    Registry.strcasecmpEq (Registry.nameOf id) name = true := by
  unfold setUp at h
  dsimp only at h
  split at h
  · cases h
  · next hname =>
    split at h
    · obtain rfl := Option.some.inj h
      exact ((Registry.Instance.getBackendByName_eq_some _ _ _).mp hname).2
    · cases h

/-- What a file of the DBATS backend sets up. -/
theorem SetUp.dbats {out : Outside Dbats.State V} {db : Dbats.Db} (hworld : out.world = .init db)
    (hbackend : out.backend .dbats = Dbats.backend) {st : ParseState}
    {m : Program Dbats.State V} {s : Main Dbats.State V} (h : SetUp out st m s)
    (hname : Registry.strcasecmpEq (Registry.nameOf .dbats)
      (st.tskCfg.value .timeseriesBackend) = true) (ticks : List Tick) :
    ∃ statsTime, run m.step s ticks = dbatsRun st.config m.proxy.statsKeyPrefix m.stats db
      out.statsWorld statsTime ticks := by
  obtain ⟨id, hid, hproxy⟩ := h.proxy
  obtain ⟨statsTime, rfl⟩ := h.init
  obtain rfl : id = .dbats := Registry.nameOf_inj (setUp_named hid) hname
  refine ⟨statsTime, ?_⟩
  obtain ⟨proxy, stats⟩ := m
  rw [hbackend] at hproxy
  rw [hworld, dbatsRun, dbatsProxy]
  dsimp only at hproxy ⊢
  rw [← hproxy]

/-- **The file decides**: whatever a producer writes to the channel that the file names, in
whatever order the partitions are read. Once a proxy that was started from the file has
handled every message and has returned 0, DBATS holds exactly what was written of the
series whose keys begin with one of the filters given, or of all of them if none is. -/
theorem file_decides (out : Outside Dbats.State V) (db : Dbats.Db) (hworld : out.world = .init db)
    (hbackend : out.backend .dbats = Dbats.backend) (argc : Nat) (entries : List Entry)
    (htidy : Tidy entries) (now : Int) (m : Program Dbats.State V) (s : Main Dbats.State V)
    (hmain : out.main argc (fileTokens entries) now = .runs m s) (name : CString)
    (hname : lastValue TextOption.timeseriesBackend.name (given entries) = some name)
    (hdbats : Registry.strcasecmpEq (Registry.nameOf .dbats) name = true) (conf : Kafka.Conf)
    (hchannel : lastValue TextOption.kafkaChannel.name (given entries) = some conf.channelName)
    (hfmt : conf.format ≠ .ascii) (results : List Kafka.ProduceResult) (calls : List ProducerCall)
    (hcalls : ∀ c ∈ calls, c.time ≠ 0 ∧ c.KeysShorter keyBufLen) (partitionCnt : Nat)
    (ticks : List Tick) (delivered : List (Bytes × Bytes))
    (hqueues : SameQueues (partitionOf partitionCnt)
      (run ProducerCall.step (Kafka.State.init conf results) calls).messages delivered) :
    let s' := run m.step s ticks
    s'.handled = delivered.map Prod.fst → s'.place = .returned 0 →
      ∃ ws, Wrote (Kafka.State.init conf results) calls ws ∧
        s'.proxy.env.world.db.data
          = applyWrites db.data
            (storeWrites ⟨givenFilters entries, conf.channelName, givenLogLevel entries⟩ ws) := by
  -- the configuration is that of the file
  obtain ⟨st, hparsed, -, hsetUp⟩ := main_runs hmain
  have hown : OwnValues (fun _ => 0) entries (Ret.ok, st) := by
    rw [← hparsed, parseConfigFile_file]
    exact htidy.ownValues
  have hconfig : st.config = ⟨givenFilters entries, conf.channelName, givenLogLevel entries⟩ :=
    config_of_ownValues hown hchannel
  have hvalue : st.tskCfg.value .timeseriesBackend = name := by
    rw [TskConfig.value, show st.tskCfg.text .timeseriesBackend = _ from hown.text _, hname]
    rfl
  obtain ⟨statsTime, hrun⟩ := hsetUp.dbats hworld hbackend (hvalue ▸ hdbats) ticks
  rw [hrun, hconfig]
  intro s' hhandled hplace
  -- what the producer writes arrives
  obtain ⟨sent, hproduced, hwrote⟩ := Kafka.wrote_start hfmt (by decide) results calls hcalls
  obtain ⟨ms, hcarries, hlast⟩ := exists_carried
    (show Config.kafkaChannel ⟨givenFilters entries, conf.channelName, givenLogLevel entries⟩
      = conf.channelName from rfl)
    hproduced hqueues
  rw [← hhandled] at hcarries
  refine ⟨_, hwrote, ?_⟩
  rw [dbats_returned _ _ m.stats db _ statsTime ticks hcarries hplace]
  exact applyWrites_congr hlast _

/-! ## A file -/

/-- A file in which every key has a value is tidy. -/
theorem tidy_of_values {entries : List Entry} (hvalues : ∀ e ∈ entries, e.2 ≠ none)
    (hfew : (filterEntries entries).length ≤ maxFilters) : Tidy entries := by
  refine ⟨fun e he => hvalues e (List.mem_of_mem_filter he), hfew, ?_⟩
  -- nothing waits between the entries
  suffices hclear : ∀ seen, textWaits seen = false ∧ intWaits seen = none →
      Along pushEntry Undisturbed seen entries from hclear [] ⟨rfl, rfl⟩
  clear hfew
  induction entries with
  | nil => exact fun _ _ => trivial
  | cons e entries ih =>
    intro seen hseen
    obtain ⟨he, hentries⟩ := List.forall_mem_cons.mp hvalues
    refine ⟨fun _ => ⟨fun _ => hseen.1, fun _ => hseen⟩, ih hentries _ ?_⟩
    obtain ⟨k, v⟩ := e
    cases v with
    | none => exact absurd rfl he
    | some tk =>
      refine ⟨rfl, ?_⟩
      show (if textWaits (.key k :: seen) then intWaits (.key k :: seen) else none) = none
      rw [textWaits, intWaits]
      cases keyOption k with
      | text o => simpa using hseen.2
      | filterPrefix => simpa using hseen.2
      | int o => simp [hseen.1]
      | unsupported => simp [hseen.1]

/-- A file for DBATS, with a filter. Later values count. -/
def dbatsEntries : List Entry :=
  minuteEntries ++ [(TextOption.timeseriesBackend.name, some (CString.ofAscii "DBATS")),
    (TextOption.statsTsBackend.name, some (CString.ofAscii "ascii")),
    (TextOption.kafkaChannel.name, some (CString.ofAscii "c")),
    (filterName, some (CString.ofAscii "a"))]

/-- Everything is there. -/
def allThere : Outside Dbats.State Ascii.State where
  ready := true
  initKafka _ := true
  available _ := true
  enable _ _ := true
  enableStats _ _ := true
  backend _ := Dbats.backend
  statsBackend _ := Ascii.backend
  world := .init Dbats.Db.empty
  statsWorld := ⟨[]⟩

/-- The program that runs. -/
def dbatsFile : Program Dbats.State Ascii.State × Main Dbats.State Ascii.State :=
  match allThere.main 2 (fileTokens dbatsEntries) 0 with
  | .runs m s => (m, s)
  | _ => (⟨dbatsProxy idleProxy.cfg idleProxy.statsKeyPrefix, printedStats⟩,
      .init (.init Dbats.Db.empty) ⟨[]⟩ 0)

theorem dbatsFile_runs :
    allThere.main 2 (fileTokens dbatsEntries) 0 = .runs dbatsFile.1 dbatsFile.2 := by
  have hruns : (allThere.main 2 (fileTokens dbatsEntries) 0).isRuns = true := by decide +kernel
  unfold dbatsFile
  generalize allThere.main 2 (fileTokens dbatsEntries) 0 = r at hruns ⊢
  cases r with
  | exits rc => cases hruns
  | stops why => cases hruns
  | runs m s => rfl

theorem file_decides_dbatsFile :
    let calls : List ProducerCall :=
      [.setSingle (CString.ofAscii "a") 1 60, .setSingle (CString.ofAscii "a") 2 120]
    let s' := run dbatsFile.1.step dbatsFile.2 crossedTicks
    ∃ ws, Wrote (Kafka.State.init connectedState.conf [.queueFull]) calls ws ∧
      s'.proxy.env.world.db.data = applyWrites Dbats.Db.empty.data
        (storeWrites ⟨givenFilters dbatsEntries, connectedState.conf.channelName,
          givenLogLevel dbatsEntries⟩ ws) := by
  intro calls
  have hmessages : (run ProducerCall.step (Kafka.State.init connectedState.conf [.queueFull])
      calls).messages = [batchA 60 1, batchA 120 2] := by
    decide +kernel
  have htidy : Tidy dbatsEntries :=
    tidy_of_values (by decide +kernel) (by decide +kernel)
  refine file_decides allThere Dbats.Db.empty rfl rfl 2 dbatsEntries htidy 0 dbatsFile.1 dbatsFile.2
    dbatsFile_runs (CString.ofAscii "DBATS") (by decide +kernel) (by decide +kernel)
    connectedState.conf (by decide +kernel) (by decide) [.queueFull] calls ?_ 2 crossedTicks
    [batchA 120 2, batchA 60 1] ?_ (by decide +kernel) (by decide +kernel)
  · have hlen : (CString.ofAscii "a").strlen < keyBufLen := by decide
    intro c hc
    rcases List.mem_pair.mp hc with rfl | rfl
    · exact ⟨by decide, hlen⟩
    · exact ⟨by decide, hlen⟩
  · rw [hmessages]
    exact sameQueues_swap (by decide +kernel)

/-- Without its first entry, the interval, or with a backend that is not known, the program
does not get so far. -/
example :
    (allThere.main 2 (fileTokens dbatsEntries.tail) 0).isRuns = false ∧
      (allThere.main 2 (fileTokens minuteEntries) 0).isRuns = false := by
  decide +kernel

end TskProxy

end Libtimeseries
