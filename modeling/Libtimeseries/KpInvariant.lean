import Libtimeseries.Base.LastWrite
import Libtimeseries.Kp
import Mathlib.Data.List.Basic

/-!
# The key package representation invariant

`Kp.WellFormed` ties together the four redundant pieces of a key package: the
array, the size counter, the counter of enabled keys and the string hash. The
hash is described by the last-write-wins reading of the array
(`names.zipIdx`): a string maps to the last index it was added under.

Every operation preserves it, and each comes with the one lemma its callers
use: what it does to the array (`keyInfos`), to the names and to the counters.
-/

namespace Libtimeseries

open ByteLib LastWrite

/-! ## The hash is a finite map keyed by string contents -/

theorem find?_congr_mem {α : Type} {p q : α → Bool} {l : List α}
    (h : ∀ a ∈ l, p a = q a) : l.find? p = l.find? q := by
  rw [← List.head?_filter, ← List.head?_filter, List.filter_congr h]

theorem khGet_append_names {names : List Bytes} {h : List (Nat × Nat)}
    (howner : ∀ e ∈ h, e.1 < names.length) (new : List Bytes) (k : Bytes) :
    khGet (names ++ new) h k = khGet names h k := by
  unfold khGet
  congr 1
  refine find?_congr_mem fun e he => ?_
  rw [List.getElem?_append_left (howner e he)]

/-- `kh_put` with a fresh string buffer overrides the string's entry and no
other. -/
theorem khGet_khPut {names : List Bytes} {h : List (Nat × Nat)}
    (howner : ∀ e ∈ h, e.1 < names.length) (key k : Bytes) (id : Nat) :
    khGet (names ++ [key]) (khPut (names ++ [key]) h names.length id) k
      = if key = k then some id else khGet names h k := by
  have hnew : (names ++ [key])[names.length]? = some key := by simp
  rw [← khGet_append_names howner [key] k]
  unfold khPut
  rw [hnew]
  by_cases hany : (h.any fun e => (names ++ [key])[e.1]? == some key) = true
  · -- the string is in the table: its entry gets the new id
    rw [if_pos hany]
    unfold khGet
    rw [List.find?_map, Option.map_map]
    have hfind : (h.find? ((fun e => (names ++ [key])[e.1]? == some k) ∘ fun e =>
          if (names ++ [key])[e.1]? == some key then (e.1, id) else e))
        = h.find? fun e => (names ++ [key])[e.1]? == some k := by
      refine find?_congr_mem fun e _ => ?_
      by_cases he : (names ++ [key])[e.1]? = some key <;> simp [he]
    rw [hfind]
    by_cases hk : key = k
    · subst hk
      obtain ⟨e, he, hek⟩ := List.any_eq_true.mp hany
      cases hf : h.find? fun e => (names ++ [key])[e.1]? == some key with
      | none => exact absurd hek (by simpa using List.find?_eq_none.mp hf e he)
      | some e' =>
        have he' : (names ++ [key])[e'.1]? = some key := by
          simpa using List.find?_some hf
        simp [he']
    · rw [if_neg hk]
      cases hf : h.find? fun e => (names ++ [key])[e.1]? == some k with
      | none => rfl
      | some e' =>
        have he' : (names ++ [key])[e'.1]? = some k := by
          simpa using List.find?_some hf
        simp [he', Ne.symm hk]
  · -- a new string: appended behind the others
    rw [if_neg hany]
    unfold khGet
    rw [List.find?_append]
    by_cases hk : key = k
    · subst hk
      have hnone : (h.find? fun e => (names ++ [key])[e.1]? == some key) = none := by
        rw [List.find?_eq_none]
        intro e he hek
        exact hany (List.any_eq_true.mpr ⟨e, he, hek⟩)
      simp [hnone]
    · simp [hk]

theorem khPut_owner_lt {names : List Bytes} {h : List (Nat × Nat)} {n owner id : Nat}
    (howner : ∀ e ∈ h, e.1 < n) (hn : owner < n) :
    ∀ e ∈ khPut names h owner id, e.1 < n := by
  intro e he
  unfold khPut at he
  split at he
  · obtain ⟨e', he', rfl⟩ := List.mem_map.mp he
    have := howner e' he'
    split <;> exact this
  · rcases List.mem_append.mp he with he | he
    · exact howner e he
    · rw [List.mem_singleton.mp he]
      exact hn

/-! ## Updates of one array element -/

section Modify

variable {α β : Type}

/-- A view that ignores what is modified does not change. -/
theorem map_modify_of_eq (g : α → β) (f : α → α) (hfg : ∀ a, g (f a) = g a)
    (l : List α) (i : Nat) : (l.modify i f).map g = l.map g := by
  apply List.ext_getElem?
  intro j
  rw [List.getElem?_map, List.getElem?_map, List.getElem?_modify]
  by_cases hij : i = j <;> cases l[j]? <;> simp [hij, hfg]

/-- Modifying every element in turn maps the list. -/
theorem foldl_modify_range (f : α → α) (l : List α) :
    (List.range l.length).foldl (fun l i => l.modify i f) l = l.map f := by
  -- after `n` rounds the first `n` elements are done
  have hpre : ∀ n j, ((List.range n).foldl (fun l i => l.modify i f) l)[j]?
      = if j < n then (l[j]?).map f else l[j]? := by
    intro n
    induction n with
    | zero => simp
    | succ n ih =>
      intro j
      rw [List.range_succ, List.foldl_append, List.foldl_cons, List.foldl_nil,
        List.getElem?_modify, ih]
      by_cases hnj : n = j
      · subst hnj
        simp
      · by_cases hj : j < n
        · simp [hnj, hj, Nat.lt_succ_of_lt hj]
        · simp [hnj, hj, show ¬ j < n + 1 by omega]
  apply List.ext_getElem?
  intro j
  rw [hpre, List.getElem?_map]
  by_cases hj : j < l.length
  · rw [if_pos hj]
  · rw [if_neg hj]
    simp [List.getElem?_eq_none (Nat.le_of_not_lt hj)]

/-- Modifying one element from `a` to `f a` moves a count by their difference. -/
theorem countP_modify (p : α → Bool) (f : α → α) {l : List α} {i : Nat} {a : α}
    (h : l[i]? = some a) :
    (l.modify i f).countP p + (if p a then 1 else 0)
      = l.countP p + (if p (f a) then 1 else 0) := by
  induction l generalizing i with
  | nil => simp at h
  | cons b l ih =>
    cases i with
    | zero =>
      obtain rfl : b = a := by simpa using h
      rw [List.modify_zero_cons, List.countP_cons, List.countP_cons]
      omega
    | succ i =>
      have := ih (by simpa using h)
      rw [List.modify_succ_cons, List.countP_cons, List.countP_cons]
      omega

end Modify

/-! ## The invariant -/

/-- The representation invariant of a key package. -/
structure Kp.WellFormed (kp : Kp) : Prop where
  /-- the size counter counts the array -/
  size : kp.keyInfosCnt = kp.keyInfos.length
  /-- the enabled counter counts the keys not disabled -/
  enabled : kp.keyInfosEnabledCnt = kp.keyInfos.countP fun ki => !ki.disabled
  /-- key buffers hold plain C strings -/
  nulFree : ∀ ki ∈ kp.keyInfos, (0 : UInt8) ∉ ki.key
  /-- hash entries point to strings of counted keys -/
  owners : ∀ e ∈ kp.keyIdHash, e.1 < kp.keyInfos.length
  /-- the hash maps a string to the last index holding it -/
  lookup : ∀ k, khGet kp.names kp.keyIdHash k = lastValue k kp.names.zipIdx

namespace Kp

@[simp] theorem names_length (kp : Kp) : kp.names.length = kp.keyInfos.length := by
  simp [names]

theorem WellFormed.enabled_le {kp : Kp} (h : kp.WellFormed) :
    kp.keyInfosEnabledCnt ≤ kp.keyInfosCnt := by
  rw [h.enabled, h.size]
  exact List.countP_le_length

theorem wellFormed_init (flags : Nat) : (Kp.init flags).WellFormed where
  size := rfl
  enabled := rfl
  nulFree := by simp [init]
  owners := by simp [init]
  lookup := by simp [init, khGet, names]

/-- A change of the array that keeps all key buffers, with the counter brought
in line, keeps the invariant. -/
theorem WellFormed.update {kp kp' : Kp} (h : kp.WellFormed)
    (hkeys : kp'.keyInfos.map Ki.key = kp.keyInfos.map Ki.key)
    (hhash : kp'.keyIdHash = kp.keyIdHash) (hcnt : kp'.keyInfosCnt = kp.keyInfosCnt)
    (hen : kp'.keyInfosEnabledCnt = kp'.keyInfos.countP fun ki => !ki.disabled) :
    kp'.WellFormed := by
  have hlen : kp'.keyInfos.length = kp.keyInfos.length := by
    simpa using congrArg List.length hkeys
  have hnames : kp'.names = kp.names := by
    have hmap : ∀ l : List Ki, l.map Ki.name = (l.map Ki.key).map cstr := by simp [Ki.name]
    rw [names, hmap, hkeys, ← hmap, names]
  refine { size := by rw [hcnt, h.size, hlen], enabled := hen, nulFree := ?_,
           owners := by rw [hhash, hlen]; exact h.owners,
           lookup := by rw [hhash, hnames]; exact h.lookup }
  intro ki hki
  have hmem : ki.key ∈ kp.keyInfos.map Ki.key := hkeys ▸ List.mem_map_of_mem hki
  obtain ⟨ki', hki', heq⟩ := List.mem_map.mp hmem
  rw [← heq]
  exact h.nulFree ki' hki'

/-! ### `timeseries_kp_add_key` -/

/-- What a successful `timeseries_kp_add_key` does. -/
theorem addKey_success (kp : Kp) (key : CString) :
    (kp.addKey .success key).1 = kp.keyInfosCnt ∧
      (kp.addKey .success key).2.keyInfos = kp.keyInfos ++ [Ki.init key] ∧
      (kp.addKey .success key).2.reset = kp.reset ∧
      (kp.addKey .success key).2.disable = kp.disable ∧
      (kp.addKey .success key).2.dirty = true :=
  ⟨rfl, rfl, rfl, rfl, rfl⟩

theorem addKey_names (kp : Kp) (key : CString) :
    (kp.addKey .success key).2.names = kp.names ++ [key.bytes] := by
  show (kp.keyInfos ++ [Ki.init key]).map Ki.name = kp.keyInfos.map Ki.name ++ [key.bytes]
  rw [List.map_append, List.map_singleton]
  show _ ++ [cstr key.bytes] = _
  rw [cstr_of_nulFree key.nulFree]

theorem WellFormed.addKey {kp : Kp} (h : kp.WellFormed) (key : CString) :
    (kp.addKey .success key).2.WellFormed := by
  have hhash : (kp.addKey .success key).2.keyIdHash
      = khPut (kp.names ++ [key.bytes]) kp.keyIdHash kp.names.length kp.names.length := by
    rw [← addKey_names, names_length, ← h.size]
    rfl
  have howner : ∀ e ∈ kp.keyIdHash, e.1 < kp.names.length := by
    rw [names_length]
    exact h.owners
  refine { size := ?_, enabled := ?_, nulFree := ?_, owners := ?_, lookup := ?_ }
  · show kp.keyInfosCnt + 1 = (kp.keyInfos ++ [Ki.init key]).length
    rw [h.size, List.length_append, List.length_singleton]
  · show kp.keyInfosEnabledCnt + 1
      = (kp.keyInfos ++ [Ki.init key]).countP fun ki => !ki.disabled
    rw [h.enabled, List.countP_append]
    rfl
  · intro ki hki
    rcases List.mem_append.mp hki with hki | hki
    · exact h.nulFree ki hki
    · rw [List.mem_singleton.mp hki]
      exact key.nulFree
  · rw [hhash]
    refine khPut_owner_lt (fun e he => ?_) ?_
    · show e.1 < (kp.keyInfos ++ [Ki.init key]).length
      rw [List.length_append]
      exact Nat.lt_add_right _ (h.owners e he)
    · show kp.names.length < (kp.keyInfos ++ [Ki.init key]).length
      rw [names_length, List.length_append]
      exact Nat.lt_succ_self _
  · intro k
    rw [hhash, addKey_names, khGet_khPut howner, List.zipIdx_append, h.lookup]
    show _ = lastValue k (kp.names.zipIdx ++ [(key.bytes, 0 + kp.names.length)])
    rw [lastValue_concat, Nat.zero_add]

/-! ### Values and enabled flags -/

/-- Changing values only keeps the invariant. -/
theorem WellFormed.modifyValue {kp : Kp} (h : kp.WellFormed) (id : Nat) (f : Ki → UInt64) :
    (kp.modifyKi id fun ki => ki.set (f ki)).WellFormed := by
  refine h.update (map_modify_of_eq Ki.key (fun ki => ki.set (f ki)) (fun _ => rfl) _ _)
    rfl rfl ?_
  have hflags := map_modify_of_eq (fun ki : Ki => !ki.disabled) (fun ki => ki.set (f ki))
    (fun _ => rfl) kp.keyInfos id
  have hcount := congrArg (List.countP fun b => b) hflags
  rw [List.countP_map, List.countP_map] at hcount
  exact h.enabled.trans hcount.symm

theorem WellFormed.set {kp : Kp} (h : kp.WellFormed) (id : Nat) (value : UInt64) :
    (kp.set id value).2.WellFormed := by
  unfold Kp.set
  split
  · exact h.modifyValue id fun _ => value
  · exact h

/-- Setting the `disabled` flag of one key keeps the invariant if the counter of
enabled keys follows. -/
theorem WellFormed.setDisabled {kp : Kp} (h : kp.WellFormed) {id : Nat} {ki : Ki}
    (hki : kp.keyInfos[id]? = some ki) (disabled : Bool) {cnt : Nat}
    (hcnt : cnt + (if !ki.disabled then 1 else 0)
      = kp.keyInfosEnabledCnt + (if !disabled then 1 else 0)) :
    ({ kp.modifyKi id (·.setDisabled disabled) with
      keyInfosEnabledCnt := cnt } : Kp).WellFormed := by
  refine h.update (map_modify_of_eq Ki.key (·.setDisabled disabled) (fun _ => rfl) _ _)
    rfl rfl ?_
  have hcount : (kp.keyInfos.modify id (·.setDisabled disabled)).countP (fun ki => !ki.disabled)
        + (if !ki.disabled then 1 else 0)
      = kp.keyInfos.countP (fun ki => !ki.disabled) + (if !disabled then 1 else 0) :=
    countP_modify (fun ki : Ki => !ki.disabled) (·.setDisabled disabled) hki
  rw [← h.enabled] at hcount
  show cnt = List.countP _ (kp.keyInfos.modify id _)
  omega

theorem WellFormed.disableKey {kp : Kp} (h : kp.WellFormed) (id : Nat) :
    (kp.disableKey id).WellFormed := by
  unfold Kp.disableKey isEnabled
  cases hki : kp.keyInfos[id]? with
  | none => simpa using h
  | some ki =>
    cases hd : ki.disabled with
    | true => simpa [hd] using h
    | false =>
      rw [if_pos (by simp [hd])]
      -- the counter is not 0, so that the subtraction is exact
      have hpos : 0 < kp.keyInfosEnabledCnt := by
        rw [h.enabled, List.countP_pos_iff]
        exact ⟨ki, List.mem_of_getElem? hki, by simp [hd]⟩
      refine h.setDisabled hki true ?_
      simp [hd]
      omega

theorem WellFormed.enableKey {kp : Kp} (h : kp.WellFormed) (id : Nat) :
    (kp.enableKey id).WellFormed := by
  unfold Kp.enableKey isDisabled
  cases hki : kp.keyInfos[id]? with
  | none => simpa using h
  | some ki =>
    cases hd : ki.disabled with
    | false => simpa [hd] using h
    | true =>
      rw [if_pos (by simp [hd])]
      exact h.setDisabled hki false (by simp [hd])

/-! ### `kp_reset_disable` -/

/-- Setting a `disabled` flag to what it is changes nothing. -/
theorem modify_setDisabled_self {kis : List Ki} {id : Nat} {disabled : Bool}
    (h : ∀ ki, kis[id]? = some ki → ki.disabled = disabled) :
    kis.modify id (·.setDisabled disabled) = kis := by
  apply List.ext_getElem?
  intro j
  rw [List.getElem?_modify]
  by_cases hij : id = j
  · subst hij
    cases hki : kis[id]? with
    | none => rfl
    | some ki => simp [Ki.setDisabled, ← h ki hki]
  · cases kis[j]? <;> simp [hij]

theorem disableKey_keyInfos (kp : Kp) (id : Nat) :
    (kp.disableKey id).keyInfos = kp.keyInfos.modify id (·.setDisabled true) := by
  unfold Kp.disableKey
  split
  · rfl
  · next hen =>
    rw [modify_setDisabled_self]
    intro ki hki
    simpa [isEnabled, hki] using hen

theorem enableKey_keyInfos (kp : Kp) (id : Nat) :
    (kp.enableKey id).keyInfos = kp.keyInfos.modify id (·.setDisabled false) := by
  unfold Kp.enableKey
  split
  · rfl
  · next hdis =>
    rw [modify_setDisabled_self]
    intro ki hki
    simpa [isDisabled, hki] using hdis

theorem resetDisableKey_keyInfos (kp : Kp) (id : Nat) :
    (kp.resetDisableKey id).keyInfos
      = kp.keyInfos.modify id (Ki.afterFlush kp.reset kp.disable) := by
  unfold resetDisableKey
  -- the four flag combinations; with neither the round does nothing
  cases hr : kp.reset <;> cases hd : kp.disable
  · have hid : Ki.afterFlush false false = fun ki => ki := by
      funext ki
      simp [Ki.afterFlush]
    simpa [hd, hid] using
      (map_modify_of_eq (fun ki : Ki => ki) (fun ki => ki) (fun _ => rfl) kp.keyInfos id).symm
  · simp only [hd, Bool.false_eq_true, if_false, if_true, disableKey_keyInfos]
    congr 1
    funext ki
    simp [Ki.afterFlush, Ki.setDisabled]
  · simp only [modifyKi, hd, Bool.false_eq_true, if_false, if_true]
    congr 1
    funext ki
    simp [Ki.afterFlush, Ki.set]
  · simp only [hd, modifyKi, if_true, disableKey_keyInfos, List.modify_modify_eq]
    congr 1
    funext ki
    simp [Ki.afterFlush, Ki.setDisabled, Ki.set]

/-- What the operations on single keys and `kp_reset_disable` never touch. -/
structure SameFrame (kp kp' : Kp) : Prop where
  hash : kp'.keyIdHash = kp.keyIdHash
  cnt : kp'.keyInfosCnt = kp.keyInfosCnt
  reset : kp'.reset = kp.reset
  disable : kp'.disable = kp.disable
  dirty : kp'.dirty = kp.dirty

theorem SameFrame.refl (kp : Kp) : SameFrame kp kp := ⟨rfl, rfl, rfl, rfl, rfl⟩

theorem SameFrame.trans {a b c : Kp} (h : SameFrame a b) (h' : SameFrame b c) :
    SameFrame a c :=
  ⟨h'.hash.trans h.hash, h'.cnt.trans h.cnt, h'.reset.trans h.reset,
    h'.disable.trans h.disable, h'.dirty.trans h.dirty⟩

theorem modifyKi_frame (kp : Kp) (id : Nat) (f : Ki → Ki) : SameFrame kp (kp.modifyKi id f) :=
  ⟨rfl, rfl, rfl, rfl, rfl⟩

theorem set_frame (kp : Kp) (id : Nat) (value : UInt64) : SameFrame kp (kp.set id value).2 := by
  unfold set
  split
  · exact modifyKi_frame kp id _
  · exact .refl kp

theorem disableKey_frame (kp : Kp) (id : Nat) : SameFrame kp (kp.disableKey id) := by
  unfold disableKey
  split
  · exact ⟨rfl, rfl, rfl, rfl, rfl⟩
  · exact .refl kp

theorem enableKey_frame (kp : Kp) (id : Nat) : SameFrame kp (kp.enableKey id) := by
  unfold enableKey
  split
  · exact ⟨rfl, rfl, rfl, rfl, rfl⟩
  · exact .refl kp

theorem resetDisableKey_frame (kp : Kp) (id : Nat) : SameFrame kp (kp.resetDisableKey id) := by
  have hreset : SameFrame kp (if kp.reset then kp.modifyKi id (·.set 0) else kp) := by
    split
    · exact modifyKi_frame kp id _
    · exact .refl kp
  unfold resetDisableKey
  generalize (if kp.reset then kp.modifyKi id (·.set 0) else kp) = kp₁ at hreset ⊢
  dsimp only
  split
  · exact hreset.trans (disableKey_frame kp₁ id)
  · exact hreset

theorem WellFormed.resetDisableKey {kp : Kp} (h : kp.WellFormed) (id : Nat) :
    (kp.resetDisableKey id).WellFormed := by
  unfold Kp.resetDisableKey
  have hreset : (if kp.reset then kp.modifyKi id (·.set 0) else kp).WellFormed := by
    split
    · exact h.modifyValue id fun _ => 0
    · exact h
  generalize (if kp.reset then kp.modifyKi id (·.set 0) else kp) = kp₁ at hreset ⊢
  dsimp only
  split
  · exact hreset.disableKey id
  · exact hreset

/-- The loop of `kp_reset_disable` over any ids. -/
theorem foldl_resetDisableKey (kp : Kp) (ids : List Nat) :
    (ids.foldl Kp.resetDisableKey kp).keyInfos
        = ids.foldl (fun l i => l.modify i (Ki.afterFlush kp.reset kp.disable)) kp.keyInfos ∧
      SameFrame kp (ids.foldl Kp.resetDisableKey kp) ∧
      (kp.WellFormed → (ids.foldl Kp.resetDisableKey kp).WellFormed) := by
  induction ids generalizing kp with
  | nil => exact ⟨rfl, .refl kp, fun h => h⟩
  | cons id ids ih =>
    obtain ⟨hkis, hframe, hwf⟩ := ih (kp.resetDisableKey id)
    have hstep := resetDisableKey_frame kp id
    refine ⟨?_, ?_, fun h => hwf (h.resetDisableKey id)⟩
    · rw [List.foldl_cons, hkis, resetDisableKey_keyInfos, hstep.reset, hstep.disable]
      rfl
    · exact hstep.trans hframe

theorem resetDisable_frame (kp : Kp) : SameFrame kp kp.resetDisable := by
  unfold resetDisable
  split
  · exact .refl kp
  · exact (foldl_resetDisableKey kp _).2.1

theorem WellFormed.resetDisable {kp : Kp} (h : kp.WellFormed) : kp.resetDisable.WellFormed := by
  unfold Kp.resetDisable
  split
  · exact h
  · exact (foldl_resetDisableKey kp _).2.2 h

/-- **What a successful flush leaves in the array**: every value 0 if the
package resets, every key disabled if it disables. -/
theorem WellFormed.resetDisable_keyInfos {kp : Kp} (h : kp.WellFormed) :
    kp.resetDisable.keyInfos = kp.keyInfos.map (Ki.afterFlush kp.reset kp.disable) := by
  unfold Kp.resetDisable
  split
  · next hflags =>
    have hr : kp.reset = false := by
      cases hr : kp.reset <;> simp_all
    have hd : kp.disable = false := by
      cases hd : kp.disable <;> simp_all
    rw [hr, hd]
    have hid : Ki.afterFlush false false = id := by
      funext ki
      simp [Ki.afterFlush]
    rw [hid, List.map_id]
  · rw [(foldl_resetDisableKey kp _).1, h.size, foldl_modify_range]

end Kp

end Libtimeseries
