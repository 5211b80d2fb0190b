import Libtimeseries.TskConfig
import Libtimeseries.TskHeader
import Libtimeseries.TskRunInvariants
import Libtimeseries.TskChannel

/-!
# The names of the statistics

Proxies may share a store for their statistics. `create_stats_prefix` derives the names
from the configuration, so that each part of it is one node of a Graphite path.

- `KeepsStats`: what `inc_stat` and the flushes of the statistics keep, every run keeps;
- `splitOn_statsKey`: a name has seven nodes, whatever the configuration contains;
- `statistics_apart`: if two proxies ever write the same name, their consumer groups,
  topic prefixes and channels are the same up to `.` and `-`, and then all names are.
-/

namespace Libtimeseries

open ByteLib RunLib

namespace TskProxy

variable {W V : Type}

/-! ## Names -/

/-- `STATS_METRIC_PREFIX` -/
def statsMetricPrefix : CString := CString.ofAscii "systems.services.tsk"

theorem safeNode_nulFree (str : CString) :
    (0 : UInt8) ∉ str.bytes.map fun b => if b = 46 then 45 else b := by
  simp only [List.mem_map, not_exists, not_and]
  intro b hb
  split
  · simp
  · rintro rfl
    exact str.nulFree hb

/-- `graphite_safe_node` -/
def graphiteSafeNode (str : CString) : CString where
  bytes := str.bytes.map fun b => if b = 46 then 45 else b
  nulFree := safeNode_nulFree str

/-- `create_stats_prefix`, if the options are there: `strdup` of NULL is undefined. -/
def createStatsPrefix (cfg : TskConfig) : Option CString := do
  let consumerGroup := graphiteSafeNode (← cfg.text .kafkaConsumerGroup)
  let topicPrefix := graphiteSafeNode (← cfg.text .kafkaTopicPrefix)
  let channel := graphiteSafeNode (← cfg.text .kafkaChannel)
  return CString.ofBytes (statsMetricPrefix.bytes ++ [46] ++ consumerGroup.bytes ++ [46] ++
    topicPrefix.bytes ++ [46] ++ channel.bytes)

/-- The last parts of the names. -/
def statNames : List String := ["messages_cnt", "messages_bytes", "flush_cnt", "flushed_key_cnt"]

/-- The options that go into the names. -/
def nodeOptions : List TextOption := [.kafkaConsumerGroup, .kafkaTopicPrefix, .kafkaChannel]

/-- The nodes of a prefix. -/
def prefixNodes (nodes : List CString) : List Bytes :=
  [(CString.ofAscii "systems").bytes, (CString.ofAscii "services").bytes,
    (CString.ofAscii "tsk").bytes] ++ nodes.map CString.bytes

theorem dot_notMem_safeNode (str : CString) : (46 : UInt8) ∉ (graphiteSafeNode str).bytes := by
  simp only [graphiteSafeNode, List.mem_map, not_exists, not_and]
  intro b hb
  split
  · decide
  · assumption

theorem statsKey_bytes (statsKeyPrefix suffix : CString) :
    (statsKey statsKeyPrefix suffix).bytes = statsKeyPrefix.bytes ++ 46 :: suffix.bytes := by
  rw [statsKey, CString.ofBytes]
  dsimp only
  rw [cstr_of_nulFree, List.append_assoc, List.singleton_append]
  simp [statsKeyPrefix.nulFree, suffix.nulFree]

/-- What is put behind the last dot is a node. -/
theorem splitOn_concat {path node : Bytes} (h : (46 : UInt8) ∉ node) :
    (path ++ 46 :: node).splitOn 46 = path.splitOn 46 ++ [node] := by
  rw [List.splitOn_append_cons_self, List.splitOn_eq_singleton h]

/-- The prefix has one node for each option. -/
theorem splitOn_statsPrefix {cfg : TskConfig} {statsKeyPrefix : CString}
    (h : createStatsPrefix cfg = some statsKeyPrefix) :
    ∃ nodes, nodeOptions.map (fun o => (cfg.text o).map graphiteSafeNode) = nodes.map some ∧
      statsKeyPrefix.bytes.splitOn 46 = prefixNodes nodes := by
  unfold createStatsPrefix at h
  cases hgroup : cfg.text .kafkaConsumerGroup with
  | none => simp [hgroup] at h
  | some consumerGroup =>
    cases htopic : cfg.text .kafkaTopicPrefix with
    | none => simp [hgroup, htopic] at h
    | some topicPrefix =>
      cases hchannel : cfg.text .kafkaChannel with
      | none => simp [hgroup, htopic, hchannel] at h
      | some channel =>
        rw [hgroup, htopic, hchannel] at h
        refine ⟨[graphiteSafeNode consumerGroup, graphiteSafeNode topicPrefix,
          graphiteSafeNode channel], ?_, ?_⟩
        · simp [nodeOptions, hgroup, htopic, hchannel]
        · rw [← Option.some.inj h, CString.ofBytes]
          dsimp only
          rw [cstr_of_nulFree]
          · rw [← List.append_cons, ← List.append_cons, ← List.append_cons,
              splitOn_concat (dot_notMem_safeNode _), splitOn_concat (dot_notMem_safeNode _),
              splitOn_concat (dot_notMem_safeNode _)]
            rfl
          · have hnulFree := fun str => (graphiteSafeNode str).nulFree
            simp [hnulFree, statsMetricPrefix.nulFree]

/-- A name has seven nodes, whatever the configuration contains. -/
theorem splitOn_statsKey {cfg : TskConfig} {statsKeyPrefix : CString}
    (h : createStatsPrefix cfg = some statsKeyPrefix) {suffix : String}
    (hsuffix : suffix ∈ statNames) :
    ∃ nodes, nodeOptions.map (fun o => (cfg.text o).map graphiteSafeNode) = nodes.map some ∧
      (statsKey statsKeyPrefix (CString.ofAscii suffix)).bytes.splitOn 46
        = prefixNodes nodes ++ [(CString.ofAscii suffix).bytes] := by
  obtain ⟨nodes, hnodes, hsplit⟩ := splitOn_statsPrefix h
  have hdot : ∀ suffix ∈ statNames, (46 : UInt8) ∉ (CString.ofAscii suffix).bytes := by decide
  refine ⟨nodes, hnodes, ?_⟩
  rw [statsKey_bytes, splitOn_concat (hdot suffix hsuffix), hsplit]

/-! ## What every run keeps -/

/-- A property of the statistics and their environment that counting and flushing keep. -/
structure KeepsStats (m : Program W V) (I : Kp → Env V → Prop) : Prop where
  incStat : ∀ {kp : Kp} {e : Env V} (suffix : String) (value : Int), suffix ∈ statNames → I kp e →
    I (incStatKp kp (statsKey m.proxy.statsKeyPrefix (CString.ofAscii suffix)) value).2 e
  flush : ∀ {kp : Kp} {e : Env V} (time : UInt32), I kp e →
    I (kp.flush m.stats.timeseries time e).2.1 (kp.flush m.stats.timeseries time e).2.2

theorem keepsStats_andThen {P : Kp → Prop} {r : Ret × State W} {next : State W → Ret × State W}
    (hr : P r.2.statsKp) (hnext : ∀ s : State W, P s.statsKp → P (next s).2.statsKp) :
    P (andThen r next).2.statsKp := by
  obtain ⟨r, s⟩ := r
  cases r with
  | ok => exact hnext s hr
  | fail => exact hr
  | stop why => exact hr

namespace KeepsStats

variable {m : Program W V} {I : Kp → Env V → Prop} (h : KeepsStats m I) {s : Main W V}

section Functions

variable {t : State W} {e : Env V}

include h

theorem count {suffix : String} (hsuffix : suffix ∈ statNames) (value : Int) (ht : I t.statsKp e) :
    I (m.proxy.incStat suffix value t).2.statsKp e :=
  h.incStat suffix value hsuffix ht

theorem flushGroup (ht : I t.statsKp e) : I (m.proxy.flushGroup t).2.statsKp e := by
  unfold Proxy.flushGroup
  split
  · refine keepsStats_andThen (P := fun kp => I kp e) (h.count (by simp [statNames]) _ ht)
      fun t ht => ?_
    refine keepsStats_andThen (P := fun kp => I kp e) (h.count (by simp [statNames]) _ ht)
      fun t ht => ?_
    -- a flush of the data leaves the statistics
    exact keepsStats_andThen (P := fun kp => I kp e) (r := m.proxy.kpFlush t) ht fun t ht => ht
  · exact ht

theorem maybeFlush (flushTime : Int32) (ht : I t.statsKp e) :
    I (m.proxy.maybeFlush flushTime t).2.statsKp e := by
  unfold Proxy.maybeFlush
  dsimp only
  split_ifs
  · exact ht
  · exact ht
  · exact keepsStats_andThen (P := fun kp => I kp e)
      (h.flushGroup (t := t.log (.maybeFlush flushTime)) ht) fun t ht => ht
  · exact ht

theorem handleMessage (payload : Bytes) (ht : I t.statsKp e) :
    I (m.proxy.handleMessage payload t).2.statsKp e := by
  rw [handleMessage_eq]
  split
  · have hbegin : I (m.proxy.beginRecords payload (headerTime payload) t).2.statsKp e := by
      refine keepsStats_andThen (P := fun kp => I kp e) (h.maybeFlush _ ht) fun t ht => ?_
      exact keepsStats_andThen (P := fun kp => I kp e) (h.count (by simp [statNames]) _ ht)
        fun t ht => h.count (by simp [statNames]) _ ht
    refine keepsStats_andThen (P := fun kp => I kp e) hbegin fun t ht => ?_
    rwa [recordLoop_stats]
  · exact ht

end Functions

include h

theorem maybeFlushStats (now : Int) (hs : I s.proxy.statsKp s.statsEnv) :
    I (m.maybeFlushStats now s).2.proxy.statsKp (m.maybeFlushStats now s).2.statsEnv := by
  have hflush := h.flush s.statsTime.toUInt32 hs
  unfold Program.maybeFlushStats Stats.maybeFlushStats
  split
  · exact hs
  · dsimp only
    split
    · unfold Stats.kpFlush
      dsimp only
      generalize s.proxy.statsKp.flush m.stats.timeseries s.statsTime.toUInt32 s.statsEnv = r
        at hflush ⊢
      obtain ⟨r, kp, e⟩ := r
      cases r with
      | ok => exact hflush
      | fail => exact hflush
      | stop why => exact hflush
    · exact hs

/-- **What counting and flushing keep, every run keeps.** -/
theorem run (w : W) (v : V) (statsTime : Int32) (hinit : I (Kp.init 1) ⟨v, []⟩)
    (ticks : List Tick) :
    I (RunLib.run m.step (Main.init w v statsTime) ticks).proxy.statsKp
      (RunLib.run m.step (Main.init w v statsTime) ticks).statsEnv := by
  have hkept : KeptBy m fun s e _ => I s.statsKp e :=
    ⟨fun flushTime hs => h.maybeFlush flushTime hs, fun payload hs => h.handleMessage payload hs,
      fun now hs => h.maybeFlushStats now hs⟩
  exact hkept.run w v statsTime hinit ticks

end KeepsStats

/-! ## The names a run writes -/

/-- A name of the proxy's own. -/
def IsStatKey (statsKeyPrefix : CString) (key : Bytes) : Prop :=
  ∃ suffix ∈ statNames, key = (statsKey statsKeyPrefix (CString.ofAscii suffix)).bytes

/-- The package and the callbacks so far have only such names. -/
structure Named (statsKeyPrefix : CString) (kp : Kp) (e : Env V) : Prop where
  wf : kp.WellFormed
  keys : kp.AllKeys (IsStatKey statsKeyPrefix)
  calls : ∀ c ∈ e.calls, c.kp.AllKeys (IsStatKey statsKeyPrefix)

theorem Named.incStat {statsKeyPrefix : CString} {kp : Kp} {e : Env V}
    (h : Named statsKeyPrefix kp e) {suffix : String} (hsuffix : suffix ∈ statNames) (value : Int) :
    Named statsKeyPrefix
      (incStatKp kp (statsKey statsKeyPrefix (CString.ofAscii suffix)) value).2 e := by
  by_cases hvalue : 0 < value
  · refine ⟨(incStatKp_spec h.wf _ hvalue).2, ?_, h.calls⟩
    unfold incStatKp
    rw [if_pos hvalue]
    dsimp only
    split
    · exact (h.keys.addKey ⟨suffix, hsuffix, rfl⟩).set _ _
    · exact h.keys.set _ _
  · unfold incStatKp
    rw [if_neg hvalue]
    exact h

theorem Named.flush {statsKeyPrefix : CString} {kp : Kp} {e : Env V} (h : Named statsKeyPrefix kp e)
    (ts : Timeseries V) (time : UInt32) :
    Named statsKeyPrefix (kp.flush ts time e).2.1 (kp.flush ts time e).2.2 := by
  refine ⟨h.wf.flush ts time e, h.keys.flush h.wf ts time e, ?_⟩
  obtain ⟨kp₁, hspec, -⟩ := Kp.flush_spec ts kp time e
  obtain ⟨new, hnew, hcalls⟩ := hspec.calls
  rw [hnew]
  exact List.forall_mem_append.mpr ⟨h.calls, fun c hc => h.keys.of_core (hcalls c hc).1⟩

theorem named_run (m : Program W V) (w : W) (v : V) (statsTime : Int32) (ticks : List Tick) :
    let s := run m.step (Main.init w v statsTime) ticks
    Named m.proxy.statsKeyPrefix s.proxy.statsKp s.statsEnv := by
  have hkeeps : KeepsStats m (Named m.proxy.statsKeyPrefix) :=
    ⟨fun _ value hsuffix h => h.incStat hsuffix value,
      fun time h => h.flush m.stats.timeseries time⟩
  refine hkeeps.run w v statsTime ⟨Kp.wellFormed_init 1, ?_, ?_⟩ ticks
  · simp [Kp.AllKeys, Kp.init]
  · simp

/-- The nodes of a name. -/
theorem IsStatKey.nodes {cfg : TskConfig} {statsKeyPrefix : CString} {key : Bytes}
    (hkey : IsStatKey statsKeyPrefix key) (h : createStatsPrefix cfg = some statsKeyPrefix) :
    ∃ nodes suffix, nodeOptions.map (fun o => (cfg.text o).map graphiteSafeNode) = nodes.map some ∧
      key.splitOn 46 = prefixNodes nodes ++ [suffix] := by
  obtain ⟨suffix, hsuffix, rfl⟩ := hkey
  obtain ⟨nodes, hnodes, hsplit⟩ := splitOn_statsKey h hsuffix
  exact ⟨nodes, _, hnodes, hsplit⟩

theorem prefixNodes_injective {nodes nodes' : List CString}
    (h : prefixNodes nodes = prefixNodes nodes') : nodes = nodes' := by
  have hbytes : nodes.map CString.bytes = nodes'.map CString.bytes := List.append_cancel_left h
  exact List.map_injective_iff.mpr (fun _ _ => CString.ext_iff'.mpr) hbytes

/-- **Statistics of different proxies stay apart**: whatever two proxies receive and
whatever their clocks show, every name they write has seven nodes; a name that both write
means that their consumer groups, topic prefixes and channels are the same once each `.`
has become a `-`; and then all their names are the same. -/
theorem statistics_apart {W' V' : Type} (cfg cfg' : TskConfig) (m : Program W V)
    (m' : Program W' V') (hcfg : createStatsPrefix cfg = some m.proxy.statsKeyPrefix)
    (hcfg' : createStatsPrefix cfg' = some m'.proxy.statsKeyPrefix) (w : W) (w' : W') (v : V)
    (v' : V') (statsTime statsTime' : Int32) (ticks ticks' : List Tick) :
    let s := run m.step (Main.init w v statsTime) ticks
    let s' := run m'.step (Main.init w' v' statsTime') ticks'
    let Writes := fun key => ∃ c ∈ s.statsEnv.calls, key ∈ c.kp.keyInfos.map Ki.key
    let Writes' := fun key => ∃ c ∈ s'.statsEnv.calls, key ∈ c.kp.keyInfos.map Ki.key
    let Same := ∀ o ∈ nodeOptions,
      (cfg.text o).map graphiteSafeNode = (cfg'.text o).map graphiteSafeNode
    (∀ key, Writes key → (key.splitOn 46).length = 7) ∧
      (∀ key, Writes key → Writes' key → Same) ∧
      (Same → ∀ suffix, statsKey m.proxy.statsKeyPrefix suffix
        = statsKey m'.proxy.statsKeyPrefix suffix) := by
  intro s s' Writes Writes' Same
  have hwrites : ∀ key, Writes key → IsStatKey m.proxy.statsKeyPrefix key := by
    rintro key ⟨c, hc, hkey⟩
    exact (named_run m w v statsTime ticks).calls c hc key hkey
  have hwrites' : ∀ key, Writes' key → IsStatKey m'.proxy.statsKeyPrefix key := by
    rintro key ⟨c, hc, hkey⟩
    exact (named_run m' w' v' statsTime' ticks').calls c hc key hkey
  refine ⟨fun key hkey => ?_, fun key hkey hkey' => ?_, fun hsame suffix => ?_⟩
  · obtain ⟨nodes, suffix, hnodes, hsplit⟩ := (hwrites key hkey).nodes hcfg
    have hlength := congrArg List.length hnodes
    rw [hsplit]
    simp [nodeOptions, prefixNodes] at hlength ⊢
    omega
  · obtain ⟨nodes, suffix, hnodes, hsplit⟩ := (hwrites key hkey).nodes hcfg
    obtain ⟨nodes', suffix', hnodes', hsplit'⟩ := (hwrites' key hkey').nodes hcfg'
    rw [hsplit] at hsplit'
    have hinj := prefixNodes_injective (List.append_inj_left' hsplit' rfl)
    rw [← hinj, ← hnodes] at hnodes'
    exact fun o ho => (List.map_inj_left.mp hnodes' o ho).symm
  · obtain ⟨nodes, hnodes, hsplit⟩ := splitOn_statsPrefix hcfg
    obtain ⟨nodes', hnodes', hsplit'⟩ := splitOn_statsPrefix hcfg'
    rw [List.map_inj_left.mpr hsame, hnodes'] at hnodes
    have hinj : nodes' = nodes :=
      List.map_injective_iff.mpr (fun _ _ => Option.some.inj) hnodes
    rw [hinj, ← hsplit] at hsplit'
    -- the nodes make up the path
    have hbytes := congrArg (List.intercalate [46]) hsplit'
    rw [List.intercalate_splitOn, List.intercalate_splitOn] at hbytes
    rw [CString.ext_iff'.mpr hbytes]

/-- A proxy of a consumer group. -/
def groupConfig (consumerGroup : String) : TskConfig :=
  ⟨fun o => some (CString.ofAscii (if o = .kafkaConsumerGroup then consumerGroup else "x")), [], [],
    0⟩

def groupProgram (consumerGroup : String) : Program Unit Ascii.State :=
  ⟨{ idleProxy with
      statsKeyPrefix := (createStatsPrefix (groupConfig consumerGroup)).getD statsMetricPrefix },
    printedStats⟩

/-- A message, and a flush of the statistics. -/
def oneFlush : List Tick :=
  [.go 0 none, .go 0 (some (.data (messageA 60 1).payload)), .go 0 none, .go 125 none]

/-- The groups `a.b` and `a-b` cannot be told apart. -/
theorem statistics_apart_groups :
    (∀ o ∈ nodeOptions, ((groupConfig "a.b").text o).map graphiteSafeNode
        = ((groupConfig "a-b").text o).map graphiteSafeNode) ∧
      ∀ suffix, statsKey (groupProgram "a.b").proxy.statsKeyPrefix suffix
        = statsKey (groupProgram "a-b").proxy.statsKeyPrefix suffix := by
  obtain ⟨-, happart, hsame⟩ := statistics_apart (groupConfig "a.b") (groupConfig "a-b")
    (groupProgram "a.b") (groupProgram "a-b") rfl rfl () () ⟨[]⟩ ⟨[]⟩ 0 0 oneFlush oneFlush
  have hgroups := happart (statsKey (groupProgram "a.b").proxy.statsKeyPrefix
    (CString.ofAscii "messages_cnt")).bytes (by decide +kernel) (by decide +kernel)
  exact ⟨hgroups, hsame hgroups⟩

end TskProxy

end Libtimeseries
