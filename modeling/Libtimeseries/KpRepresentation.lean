import Libtimeseries.KpStore
import Libtimeseries.World

/-!
# What a key package represents

Seen from outside, a key package is the list of its additions: ids are handed
out in order, a name is forever, and a lookup finds the last addition.
`Represents` is that reading together with the enabled counter; it holds after
every run, whatever the enabled backends do.
-/

namespace Libtimeseries

open ByteLib LastWrite RunLib

/-- The package stands for these additions (key, returned id). -/
structure Kp.Represents (kp : Kp) (added : List (CString × Int)) : Prop where
  /-- the enabled size is the number of keys not disabled -/
  enabled : kp.enabledSize = kp.keyInfos.countP fun ki => !ki.disabled
  enabled_le : kp.enabledSize ≤ kp.size
  /-- ids are dense -/
  dense : added.map Prod.snd = (List.range kp.size).map Int.ofNat
  /-- an id keeps the name it was added under -/
  name : ∀ key id, (key, Int.ofNat id) ∈ added → kp.getKeyName id = some key.bytes
  /-- a lookup fails exactly for keys never added -/
  absent : ∀ key, kp.getKey key = -1 ↔ key ∉ added.map Prod.fst
  /-- a lookup finds the most recent addition -/
  lookup : ∀ key, kp.getKey key = (lastValue key added).getD (-1)

/-- The invariant behind it. -/
structure KpRun.Inv {W : Type} (s : KpRun W) : Prop where
  wf : s.kp.WellFormed
  names : s.kp.names = s.added.map fun e => e.1.bytes
  ids : s.added.map Prod.snd = (List.range s.kp.keyInfosCnt).map Int.ofNat

section Lookup

variable {W : Type} {s : KpRun W}

theorem KpRun.Inv.length (h : s.Inv) : s.added.length = s.kp.keyInfosCnt := by
  simpa using congrArg List.length h.ids

/-- The id of an addition is its position. -/
theorem KpRun.Inv.getElem_added (h : s.Inv) {i : Nat} (hi : i < s.added.length) :
    (s.added[i]).2 = Int.ofNat i := by
  have hids := congrArg (·[i]?) h.ids
  simp only [List.getElem?_map, List.getElem?_eq_getElem hi,
    List.getElem?_range (h.length ▸ hi), Option.map_some, Option.some.injEq] at hids
  exact hids

/-- The array with its indices is the list of additions. -/
theorem KpRun.Inv.zipIdx_names (h : s.Inv) :
    (s.kp.names.zipIdx.map fun e => (e.1, Int.ofNat e.2))
      = s.added.map fun e => (e.1.bytes, e.2) := by
  have hlen : s.kp.names.length = s.added.length := by simp [h.names]
  apply List.ext_getElem
  · simp [hlen]
  · intro i h₁ h₂
    have hi : i < s.added.length := by simpa using h₂
    have hi' : i < s.kp.names.length := hlen ▸ hi
    have hname : s.kp.names[i] = (s.added[i]).1.bytes := by
      simp only [h.names, List.getElem_map]
    simp [hname, h.getElem_added hi]

theorem KpRun.Inv.getKey (h : s.Inv) (key : CString) :
    s.kp.getKey key = (lastValue key s.added).getD (-1) := by
  have hinj : Function.Injective CString.bytes := fun a b hab => CString.ext_iff'.mpr hab
  have hlast : (lastValue key.bytes s.kp.names.zipIdx).map Int.ofNat
      = lastValue key s.added := by
    rw [← lastValue_map (f := fun k : Bytes => k) (fun _ _ h => h) Int.ofNat, h.zipIdx_names,
      lastValue_map hinj (fun id : Int => id)]
    simp
  rw [← hlast, Kp.getKey, h.wf.lookup]
  cases lastValue key.bytes s.kp.names.zipIdx <;> rfl

theorem KpRun.Inv.represents (h : s.Inv) : s.kp.Represents s.added where
  enabled := h.wf.enabled
  enabled_le := h.wf.enabled_le
  dense := h.ids
  name key id hmem := by
    obtain ⟨i, hi, hget⟩ := List.mem_iff_getElem.mp hmem
    have hid := h.getElem_added hi
    rw [hget] at hid
    obtain rfl : id = i := Int.ofNat.inj hid
    have hcnt : id < s.kp.keyInfosCnt := h.length ▸ hi
    have hname : s.kp.names[id]? = some key.bytes := by
      rw [h.names, List.getElem?_map, List.getElem?_eq_getElem hi, hget]
      rfl
    rw [Kp.getKeyName, if_neg (Nat.not_le.mpr hcnt), ← hname, Kp.names, List.getElem?_map]
  absent key := by
    rw [h.getKey, ← lastValue_eq_none]
    cases hlast : lastValue key s.added with
    | none => simp
    | some id =>
      obtain ⟨i, hi, hget⟩ := List.mem_iff_getElem.mp (lastValue_mem hlast)
      have hid := h.getElem_added hi
      rw [hget] at hid
      have hne : id ≠ -1 := by
        rw [show id = Int.ofNat i from hid]
        rintro ⟨⟩
      simp [hne]
  lookup := h.getKey

end Lookup

/-! ## Runs -/

theorem KpRun.inv_init {W : Type} (flags : Nat) (w : W) : (KpRun.init flags w).Inv :=
  ⟨Kp.wellFormed_init flags, rfl, rfl⟩

/-- A call that keeps names and size keeps the reading. -/
theorem KpRun.Inv.of_frame {W : Type} {s s' : KpRun W} (h : s.Inv) (hwf : s'.kp.WellFormed)
    (hnames : s'.kp.names = s.kp.names) (hcnt : s'.kp.keyInfosCnt = s.kp.keyInfosCnt)
    (hadded : s'.added = s.added) : s'.Inv :=
  ⟨hwf, by rw [hnames, hadded, h.names], by rw [hcnt, hadded, h.ids]⟩

/-- One call keeps the invariant. -/
theorem KpRun.inv_step {W : Type} (ts : Timeseries W) {s : KpRun W} (h : s.Inv) (op : KpOp) :
    (s.step ts op).Inv := by
  unfold KpRun.step
  split
  · exact h
  cases op with
  | addKey key =>
    constructor
    · exact h.wf.addKey key
    · show (s.kp.addKey .success key).2.names = _
      rw [Kp.addKey_names, h.names, List.map_append]
      rfl
    · show (s.added ++ [(key, Int.ofNat s.kp.keyInfosCnt)]).map Prod.snd
        = (List.range (s.kp.keyInfosCnt + 1)).map Int.ofNat
      rw [List.map_append, h.ids, List.range_succ, List.map_append]
      rfl
  | set id value =>
    exact h.of_frame (h.wf.set id value) (Kp.set_names _ id value)
      (Kp.set_frame _ id value).cnt rfl
  | enableKey id =>
    exact h.of_frame (h.wf.enableKey id) (Kp.enableKey_names _ id) (Kp.enableKey_frame _ id).cnt
      rfl
  | disableKey id =>
    exact h.of_frame (h.wf.disableKey id) (Kp.disableKey_names _ id)
      (Kp.disableKey_frame _ id).cnt rfl
  | getKey key => exact h
  | resolve =>
    have hcore := (Kp.resolve_spec ts 0 s.kp s.env).core
    exact h.of_frame (h.wf.resolve ts s.env) (Kp.names_of_core hcore) (Kp.cnt_of_core hcore) rfl
  | flush time =>
    obtain ⟨kp₁, hcalls, hkp⟩ := Kp.flush_spec ts s.kp time s.env
    have hnames : (s.kp.flush ts time s.env).2.1.names = kp₁.names := by
      rw [hkp]
      split
      · exact (h.wf.of_core hcalls.core).resetDisable_names
      · rfl
    have hcnt : (s.kp.flush ts time s.env).2.1.keyInfosCnt = kp₁.keyInfosCnt := by
      rw [hkp]
      split
      · exact (Kp.resetDisable_frame kp₁).cnt
      · rfl
    exact h.of_frame (h.wf.flush ts time s.env) (hnames.trans (Kp.names_of_core hcalls.core))
      (hcnt.trans (Kp.cnt_of_core hcalls.core)) rfl

/-- Additions are never taken back. -/
theorem KpRun.added_step {W : Type} (ts : Timeseries W) (s : KpRun W) (op : KpOp) :
    s.added <+: (s.step ts op).added := by
  unfold KpRun.step
  split
  · exact List.prefix_rfl
  cases op with
  | addKey key => exact List.prefix_append _ _
  | _ => exact List.prefix_rfl

/-- **The key package representation**: after every run, the package stands for
the additions made; and a longer run only adds to them. -/
theorem kp_represents (enabled : BackendId → Bool) (flags : Nat) (w : World)
    (ops ops' : List KpOp) :
    let s := run (KpRun.step (World.timeseries enabled)) (KpRun.init flags w) ops
    let s' := run (KpRun.step (World.timeseries enabled)) (KpRun.init flags w) (ops ++ ops')
    s.kp.Represents s.added ∧ s'.kp.Represents s'.added ∧ s.added <+: s'.added := by
  have hinv : ∀ ops, (run (KpRun.step (World.timeseries enabled)) (KpRun.init flags w) ops).Inv :=
    run_always KpRun.Inv (fun _ op h => KpRun.inv_step _ h op) (KpRun.inv_init flags w)
  refine ⟨(hinv ops).represents, (hinv _).represents, ?_⟩
  rw [run_append]
  exact run_rel (fun s s' : KpRun World => s.added <+: s'.added) (fun _ => List.prefix_rfl)
    (fun _ _ _ => List.IsPrefix.trans) (KpRun.added_step (World.timeseries enabled)) _ ops'

end Libtimeseries
