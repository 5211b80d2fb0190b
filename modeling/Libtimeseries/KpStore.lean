import Libtimeseries.Backend

/-!
# A key package as a store

When no name occurs twice, the enabled keys of a package are a partial map from
strings to values. This is how the proxy uses its package: it looks every key
up before it adds it, and disables all of them with each flush.
-/

namespace Libtimeseries

open ByteLib LastWrite

/-! ## Pairs of enabled keys -/

/-- The (key, value) pairs of the enabled ones among some key infos. -/
def pairsOf (kis : List Ki) : List (Bytes × UInt64) :=
  (kis.filter fun ki => !ki.disabled).map fun ki => (ki.name, ki.value)

@[simp] theorem pairsOf_nil : pairsOf [] = [] := rfl

@[simp] theorem pairsOf_append (kis kis' : List Ki) :
    pairsOf (kis ++ kis') = pairsOf kis ++ pairsOf kis' := by
  simp [pairsOf]

theorem pairsOf_cons_disabled {ki : Ki} (h : ki.disabled = true) (kis : List Ki) :
    pairsOf (ki :: kis) = pairsOf kis := by
  simp [pairsOf, h]

theorem pairsOf_cons_enabled {ki : Ki} (h : ki.disabled = false) (kis : List Ki) :
    pairsOf (ki :: kis) = (ki.name, ki.value) :: pairsOf kis := by
  simp [pairsOf, h]

theorem keys_pairsOf_sublist (kis : List Ki) :
    ((pairsOf kis).map Prod.fst).Sublist (kis.map Ki.name) := by
  rw [pairsOf, List.map_map]
  exact List.filter_sublist.map Ki.name

theorem lastValue_pairsOf_of_notMem {k : Bytes} {kis : List Ki} (h : k ∉ kis.map Ki.name) :
    lastValue k (pairsOf kis) = none :=
  lastValue_eq_none.mpr fun hk => h ((keys_pairsOf_sublist kis).subset hk)

/-- Enabling the one key of a name with a value writes that value. -/
theorem lastValue_pairsOf_modify {kis : List Ki} (hnd : (kis.map Ki.name).Nodup) {id : Nat}
    {ki : Ki} (hki : kis[id]? = some ki) {f : Ki → Ki} (hname : (f ki).name = ki.name)
    (hen : (f ki).disabled = false) (k : Bytes) :
    lastValue k (pairsOf (kis.modify id f))
      = if ki.name = k then some (f ki).value else lastValue k (pairsOf kis) := by
  obtain ⟨hid, hget⟩ := List.getElem?_eq_some_iff.mp hki
  have hsplit : kis = kis.take id ++ ki :: kis.drop (id + 1) := by
    rw [← hget, List.getElem_cons_drop, List.take_append_drop]
  have hmodify : kis.modify id f = kis.take id ++ f ki :: kis.drop (id + 1) := by
    rw [List.modify_eq_take_cons_drop hid, hget]
  generalize kis.take id = before at hsplit hmodify
  generalize kis.drop (id + 1) = after at hsplit hmodify
  subst hsplit
  rw [hmodify, pairsOf_append, lastValue_append, pairsOf_cons_enabled hen, lastValue_cons, hname]
  by_cases hk : ki.name = k
  · -- no later key has the name, so this one decides
    have hafter : k ∉ after.map Ki.name := by
      rw [List.map_append, List.map_cons] at hnd
      exact hk ▸ (List.nodup_cons.mp (List.nodup_append.mp hnd).2.1).1
    rw [if_pos hk, if_pos hk, lastValue_pairsOf_of_notMem hafter, Option.none_or, Option.some_or]
  · rw [if_neg hk, if_neg hk, Option.or_none, pairsOf_append, lastValue_append]
    cases hd : ki.disabled with
    | true => rw [pairsOf_cons_disabled hd]
    | false => rw [pairsOf_cons_enabled hd, lastValue_cons, if_neg hk, Option.or_none]

namespace Kp

/-! ## Lookups -/

/-- What `timeseries_kp_get_key` can return. -/
theorem WellFormed.getKey_cases {kp : Kp} (h : kp.WellFormed) (key : CString) :
    (kp.getKey key = -1 ∧ key.bytes ∉ kp.names) ∨
      ∃ id, kp.getKey key = Int.ofNat id ∧ id < kp.keyInfosCnt ∧
        kp.names[id]? = some key.bytes := by
  rw [getKey, h.lookup]
  cases hlast : lastValue key.bytes kp.names.zipIdx with
  | none =>
    refine .inl ⟨rfl, ?_⟩
    simpa using lastValue_eq_none.mp hlast
  | some id =>
    have hget : kp.names[id]? = some key.bytes := by
      simpa using List.mem_zipIdx_iff_getElem?.mp (lastValue_mem hlast)
    refine .inr ⟨id, rfl, ?_, hget⟩
    obtain ⟨hid, -⟩ := List.getElem?_eq_some_iff.mp hget
    rwa [names_length, ← h.size] at hid

theorem set_of_lt {kp : Kp} {id : Nat} (h : id < kp.keyInfosCnt) (value : UInt64) :
    kp.set id value = (.ok, kp.modifyKi id (·.set value)) :=
  if_pos h

theorem modifyKi_names (kp : Kp) (id : Nat) {f : Ki → Ki} (hf : ∀ ki, (f ki).name = ki.name) :
    (kp.modifyKi id f).names = kp.names :=
  map_modify_of_eq Ki.name f hf kp.keyInfos id

theorem set_names (kp : Kp) (id : Nat) (value : UInt64) : (kp.set id value).2.names = kp.names := by
  unfold Kp.set
  split
  · exact kp.modifyKi_names id fun _ => rfl
  · rfl

theorem enableKey_names (kp : Kp) (id : Nat) : (kp.enableKey id).names = kp.names := by
  unfold Kp.enableKey
  split
  · exact kp.modifyKi_names id fun _ => rfl
  · rfl

theorem disableKey_names (kp : Kp) (id : Nat) : (kp.disableKey id).names = kp.names := by
  unfold Kp.disableKey
  split
  · exact kp.modifyKi_names id fun _ => rfl
  · rfl

/-! ## The package as a map -/

/-- The enabled keys hold exactly these writes: each key once, with its last
value. -/
structure Holds (kp : Kp) (writes : List (Bytes × UInt64)) : Prop where
  nodup : (kp.enabledPairs.map Prod.fst).Nodup
  last : ∀ k, lastValue k kp.enabledPairs = lastValue k writes

theorem Holds.nil_iff {kp : Kp} {writes : List (Bytes × UInt64)} (h : kp.Holds writes) :
    kp.enabledPairs = [] ↔ writes = [] := by
  have hmem : ∀ {ws ws' : List (Bytes × UInt64)}, (∀ k, lastValue k ws = lastValue k ws') →
      ws = [] → ws' = [] := by
    rintro ws ws' hlast rfl
    rw [List.eq_nil_iff_forall_not_mem]
    intro w hw
    exact lastValue_eq_none.mp (hlast w.1).symm (List.mem_map_of_mem hw)
  constructor
  · exact hmem h.last
  · exact hmem fun k => (h.last k).symm

theorem Holds.congr {kp kp' : Kp} {writes : List (Bytes × UInt64)} (h : kp.Holds writes)
    (hpairs : kp'.enabledPairs = kp.enabledPairs) : kp'.Holds writes := by
  constructor
  · rw [hpairs]
    exact h.nodup
  · intro k
    rw [hpairs]
    exact h.last k

/-- An enabled pair is the last write of its key. -/
theorem Holds.mem {kp : Kp} {writes : List (Bytes × UInt64)} (h : kp.Holds writes) {k : Bytes}
    {v : UInt64} (hmem : (k, v) ∈ kp.enabledPairs) : lastValue k writes = some v := by
  rw [← h.last]
  exact lastValue_of_nodup h.nodup hmem

theorem WellFormed.enabledSize_eq {kp : Kp} (h : kp.WellFormed) :
    kp.enabledSize = kp.enabledPairs.length := by
  rw [enabledSize, h.enabled, enabledPairs, enabledKis, List.length_map,
    List.countP_eq_length_filter]

/-- After the loop of `kp_reset_disable` on a package that disables, nothing is
enabled. -/
theorem WellFormed.resetDisable_pairs {kp : Kp} (h : kp.WellFormed) (hd : kp.disable = true) :
    kp.resetDisable.enabledPairs = [] := by
  have hkis : ∀ ki ∈ kp.resetDisable.keyInfos, ki.disabled = true := by
    rw [h.resetDisable_keyInfos]
    intro ki hki
    obtain ⟨ki', -, rfl⟩ := List.mem_map.mp hki
    simp [Ki.afterFlush, hd]
  have hfilter : kp.resetDisable.enabledKis = [] :=
    List.filter_eq_nil_iff.mpr fun ki hki => by simp [hkis ki hki]
  rw [enabledPairs, hfilter, List.map_nil]

theorem WellFormed.resetDisable_names {kp : Kp} (h : kp.WellFormed) :
    kp.resetDisable.names = kp.names := by
  unfold Kp.names
  rw [h.resetDisable_keyInfos, List.map_map]
  rfl

end Kp

end Libtimeseries
