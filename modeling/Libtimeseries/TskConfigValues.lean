import Libtimeseries.Base.LastWrite
import Libtimeseries.TskConfigLoop

/-!
# The values of a flat mapping

A flat mapping is a list of entries, each a key with a value or without. The
token loop gives a value to its own key as long as nothing else waits for one.
A key without a value leaves its pointer set, so the entries that have a value
but do not set `textp` themselves can go astray: that of a number or of an
unsupported key goes to a string that waits, and that of an unsupported key to a
number that waits (`Undisturbed` excludes both). A filter without a value is
worse: it stays NULL, and the loop over the lengths reads through it.

- `fileTokens`: the tokens of a flat mapping;
- `OwnValues`: what the configuration should be;
- `Effects`: what some entries do to the variables if none goes astray;
- `Tidy`: the entries for which all is well.
-/

namespace Libtimeseries

open ByteLib LastWrite RunLib

namespace TskProxy

/-- A key, and its value if it has one. -/
abbrev Entry := CString × Option CString

def entryTokens (e : Entry) : List Token :=
  [.key, .scalar e.1, .value] ++ (e.2.map Token.scalar).toList

/-- The tokens of a file: the starts of the stream and of the mapping, the
entries, and the ends. -/
def fileTokens (entries : List Entry) : List Token :=
  [.other, .other] ++ entries.flatMap entryTokens ++ [.other] ++ [.streamEnd]

/-- The values given, with their keys. -/
def given (entries : List Entry) : List (CString × CString) :=
  entries.filterMap fun e => e.2.map fun tk => (e.1, tk)

/-- The `filter-prefix` entries. -/
def filterEntries (entries : List Entry) : List Entry :=
  entries.filter fun e => keyOption e.1 = .filterPrefix

/-- The assignment is to the option of its key. -/
def Assignment.Own : Assignment → Prop
  | .text (.option o) key _ => keyOption key = .text o
  | .text (.filter _) key _ => keyOption key = .filterPrefix
  | .int o key _ => keyOption key = .int o

/-- Every option holds the last value given with its own key, the filters are the
values given with theirs, and no option ever received another key's. -/
structure OwnValues (ints : IntOption → Int32) (entries : List Entry) (r : Ret × ParseState) :
    Prop where
  returns : r.1 = .ok
  text : ∀ o : TextOption, r.2.tskCfg.text o = lastValue o.name (given entries)
  ints : ∀ o : IntOption, r.2.ints o
    = ((lastValue o.name (given entries)).map fun tk => atoi tk.bytes).getD (ints o)
  filters : r.2.tskCfg.filters
    = ((given entries).filter fun w => w.1 = filterName).map fun w => some w.2
  bound : r.2.tskCfg.filters.length ≤ maxFilters
  own : ∀ a ∈ r.2.trace, a.Own

/-- The scalars seen after an entry. -/
def pushEntry (seen : List Scalar) : Entry → List Scalar
  | (k, none) => .key k :: seen
  | (k, some tk) => .value tk :: .key k :: seen

/-- The value of an entry, if any, does not go to an earlier key: no string waits
when a number or an unsupported key has one, and no number when an unsupported
key has one. -/
def Undisturbed (seen : List Scalar) (e : Entry) : Prop :=
  e.2 ≠ none →
    ((∃ o, keyOption e.1 = .int o) → textWaits seen = false) ∧
      (keyOption e.1 = .unsupported → textWaits seen = false ∧ intWaits seen = none)

/-- The entries for which all is well. -/
structure Tidy (entries : List Entry) : Prop where
  values : ∀ e ∈ filterEntries entries, e.2 ≠ none
  few : (filterEntries entries).length ≤ maxFilters
  undisturbed : Along pushEntry Undisturbed [] entries

/-! ## One entry -/

namespace ParseState

/-- After the key of an entry and the value token. -/
def afterKey (s : ParseState) (k : CString) : ParseState :=
  { ({ s with inValue := false }.keyScalar k).2 with inValue := true }

/-- After an entry, unless there are too many filters. -/
def readEntry (s : ParseState) : Entry → ParseState
  | (k, none) => s.afterKey k
  | (k, some tk) => (s.afterKey k).valueScalar tk

variable {s : ParseState}

theorem keyScalar_ok {k : CString}
    (hroom : keyOption k = .filterPrefix → s.tskCfg.filters.length < maxFilters) :
    (s.keyScalar k).1 = .ok := by
  unfold keyScalar
  cases hopt : keyOption k with
  | filterPrefix =>
    dsimp only
    rw [if_pos (hroom hopt)]
  | int o => rfl
  | text o => rfl
  | unsupported => rfl

theorem switchAll_entry (s : ParseState) {e : Entry}
    (hroom : keyOption e.1 = .filterPrefix → s.tskCfg.filters.length < maxFilters) :
    s.switchAll (entryTokens e) = (.ok, s.readEntry e) := by
  obtain ⟨k, v⟩ := e
  have hkey : ({ s with inValue := false } : ParseState).keyScalar k
      = (.ok, ({ s with inValue := false } : ParseState).keyScalar k |>.2) :=
    Prod.ext (keyScalar_ok hroom) rfl
  have hafter : s.switchAll [.key, .scalar k, .value] = (.ok, s.afterKey k) := by
    show andThen (({ s with inValue := false } : ParseState).keyScalar k) _ = _
    rw [hkey]
    rfl
  cases v with
  | none => exact hafter
  | some tk =>
    show andThen (({ s with inValue := false } : ParseState).keyScalar k) _ = _
    rw [hkey]
    rfl

theorem afterKey_text {k : CString} {o : TextOption} (h : keyOption k = .text o) :
    s.afterKey k = { s with inValue := true, key := k, textp := some (.option o) } := by
  unfold afterKey keyScalar
  rw [h]

theorem afterKey_int {k : CString} {o : IntOption} (h : keyOption k = .int o) :
    s.afterKey k = { s with inValue := true, key := k, intp := some o } := by
  unfold afterKey keyScalar
  rw [h]

theorem afterKey_filter {k : CString} (h : keyOption k = .filterPrefix)
    (hroom : s.tskCfg.filters.length < maxFilters) :
    s.afterKey k = { s with
      inValue := true
      key := k
      tskCfg := { s.tskCfg with filters := s.tskCfg.filters ++ [none] }
      textp := some (.filter s.tskCfg.filters.length) } := by
  unfold afterKey keyScalar
  rw [h]
  dsimp only
  rw [if_pos hroom]

theorem afterKey_unsupported {k : CString} (h : keyOption k = .unsupported) :
    s.afterKey k = { s with inValue := true, key := k } := by
  unfold afterKey keyScalar
  rw [h]

theorem valueScalar_of_text {target : TextTarget} (h : s.textp = some target) (tk : CString) :
    s.valueScalar tk = { s with
      tskCfg := s.tskCfg.assign tk target
      textp := none
      trace := s.trace ++ [.text target s.key tk] } := by
  unfold valueScalar
  rw [h]

theorem valueScalar_of_int {target : IntOption} (htext : s.textp = none) (h : s.intp = some target)
    (tk : CString) :
    s.valueScalar tk = { s with
      ints := Function.update s.ints target (atoi tk.bytes)
      intp := none
      trace := s.trace ++ [.int target s.key tk] } := by
  unfold valueScalar
  rw [htext, h]

theorem valueScalar_of_none (htext : s.textp = none) (h : s.intp = none) (tk : CString) :
    s.valueScalar tk = s := by
  unfold valueScalar
  rw [htext, h]

end ParseState

/-- No pointer takes the value of the entry, if any, elsewhere. -/
def ParseState.ClearFor (s : ParseState) (e : Entry) : Prop :=
  e.2 ≠ none →
    ((∃ o, keyOption e.1 = .int o) → s.textp = none) ∧
      (keyOption e.1 = .unsupported → s.textp = none ∧ s.intp = none)

/-- What some entries do if none of them goes astray. -/
structure Effects (s : ParseState) (entries : List Entry) (s' : ParseState) : Prop where
  text : ∀ o : TextOption, s'.tskCfg.text o
    = (lastValue o.name (given entries)).or (s.tskCfg.text o)
  ints : ∀ o : IntOption, s'.ints o
    = ((lastValue o.name (given entries)).map fun tk => atoi tk.bytes).getD (s.ints o)
  filters : s'.tskCfg.filters = s.tskCfg.filters ++ (filterEntries entries).map Prod.snd
  trace : ∀ a ∈ s'.trace, a ∈ s.trace ∨ a.Own

theorem Effects.refl (s : ParseState) : Effects s [] s where
  text _ := rfl
  ints _ := rfl
  filters := (List.append_nil _).symm
  trace _ ha := .inl ha

theorem given_append (es es' : List Entry) : given (es ++ es') = given es ++ given es' :=
  List.filterMap_append

theorem filterEntries_append (es es' : List Entry) :
    filterEntries (es ++ es') = filterEntries es ++ filterEntries es' :=
  List.filter_append es es'

theorem filterEntries_cons (e : Entry) (es : List Entry) :
    filterEntries (e :: es) = filterEntries [e] ++ filterEntries es :=
  filterEntries_append [e] es

theorem Effects.trans {s s' s'' : ParseState} {es es' : List Entry} (h : Effects s es s')
    (h' : Effects s' es' s'') : Effects s (es ++ es') s'' where
  text o := by
    rw [h'.text, h.text, given_append, lastValue_append, Option.or_assoc]
  ints o := by
    rw [h'.ints, h.ints, given_append, lastValue_append]
    cases lastValue o.name (given es') with
    | none => rfl
    | some tk => rfl
  filters := by
    rw [h'.filters, h.filters, filterEntries_append, List.map_append, List.append_assoc]
  trace a ha := by
    rcases h'.trace a ha with ha | hown
    · exact h.trace a ha
    · exact .inr hown

theorem lastValue_given (k : CString) (v : Option CString) (name : CString) :
    lastValue name (given [(k, v)]) = if k = name then v else none := by
  cases v with
  | none => simp [given]
  | some tk => simp [given]

/-- Effects of an entry, from what they are for each option. -/
theorem Effects.of_entry {s s' : ParseState} {k : CString} {v : Option CString}
    (htext : ∀ o, s'.tskCfg.text o
      = (if keyOption k = .text o then v else none).or (s.tskCfg.text o))
    (hints : ∀ o, s'.ints o
      = ((if keyOption k = .int o then v else none).map fun tk => atoi tk.bytes).getD (s.ints o))
    (hfilters : s'.tskCfg.filters
      = s.tskCfg.filters ++ if keyOption k = .filterPrefix then [v] else [])
    (htrace : ∀ a ∈ s'.trace, a ∈ s.trace ∨ a.Own) : Effects s [(k, v)] s' where
  text o := by
    rw [htext, lastValue_given]
    simp only [keyOption_eq_text]
  ints o := by
    rw [hints, lastValue_given]
    simp only [keyOption_eq_int]
  filters := by
    rw [hfilters, filterEntries, List.filter_cons, List.filter_nil]
    by_cases h : keyOption k = .filterPrefix
    · simp [h]
    · simp [h]
  trace := htrace

/-- A key without a value only adds a filter. -/
theorem afterKey_effects (s : ParseState) {k : CString}
    (hroom : keyOption k = .filterPrefix → s.tskCfg.filters.length < maxFilters) :
    Effects s [(k, none)] (s.afterKey k) := by
  have hkeeps : ∀ {s' : ParseState}, s'.tskCfg.text = s.tskCfg.text → s'.ints = s.ints →
      s'.tskCfg.filters = s.tskCfg.filters ++ (if keyOption k = .filterPrefix then [none] else []) →
      s'.trace = s.trace → Effects s [(k, none)] s' := by
    intro s' htext hints hfilters htrace
    refine .of_entry (fun o => ?_) (fun o => ?_) hfilters fun a ha => .inl (htrace ▸ ha)
    · rw [ite_self, htext]
      rfl
    · rw [ite_self, hints]
      rfl
  cases hopt : keyOption k with
  | text o =>
    rw [ParseState.afterKey_text hopt]
    exact hkeeps rfl rfl (by rw [hopt]; exact (List.append_nil _).symm) rfl
  | filterPrefix =>
    rw [ParseState.afterKey_filter hopt (hroom hopt)]
    exact hkeeps rfl rfl (by rw [hopt]; rfl) rfl
  | int o =>
    rw [ParseState.afterKey_int hopt]
    exact hkeeps rfl rfl (by rw [hopt]; exact (List.append_nil _).symm) rfl
  | unsupported =>
    rw [ParseState.afterKey_unsupported hopt]
    exact hkeeps rfl rfl (by rw [hopt]; exact (List.append_nil _).symm) rfl

/-- An assignment of the key itself joins the trace. -/
theorem own_of_concat {trace : List Assignment} {a b : Assignment} (ha : a ∈ trace ++ [b])
    (hown : b.Own) : a ∈ trace ∨ a.Own := by
  rcases List.mem_append.mp ha with ha | ha
  · exact .inl ha
  · rw [List.mem_singleton.mp ha]
    exact .inr hown

/-- Storing a value with its option, in the words of `Effects.of_entry`. -/
theorem update_text (f : TextOption → Option CString) (o o' : TextOption) (tk : CString) :
    Function.update f o (some tk) o'
      = (if KeyOption.text o = .text o' then some tk else none).or (f o') := by
  by_cases ho : o = o'
  · subst ho
    rw [Function.update_self, if_pos rfl]
    rfl
  · rw [Function.update_of_ne (Ne.symm ho), if_neg fun h => ho (KeyOption.text.inj h)]
    rfl

theorem update_int (f : IntOption → Int32) (o o' : IntOption) (tk : CString) :
    Function.update f o (atoi tk.bytes) o'
      = ((if KeyOption.int o = .int o' then some tk else none).map fun tk => atoi tk.bytes).getD
          (f o') := by
  by_cases ho : o = o'
  · subst ho
    rw [Function.update_self, if_pos rfl]
    rfl
  · rw [Function.update_of_ne (Ne.symm ho), if_neg fun h => ho (KeyOption.int.inj h)]
    rfl

/-- **One entry**, if no pointer takes its value elsewhere. -/
theorem readEntry_effects {s : ParseState} {e : Entry}
    (hroom : keyOption e.1 = .filterPrefix → s.tskCfg.filters.length < maxFilters)
    (hclear : s.ClearFor e) : Effects s [e] (s.readEntry e) := by
  obtain ⟨k, v⟩ := e
  cases v with
  | none => exact afterKey_effects s hroom
  | some tk =>
    show Effects s [(k, some tk)] ((s.afterKey k).valueScalar tk)
    cases hopt : keyOption k with
    | text o =>
      rw [ParseState.afterKey_text hopt, ParseState.valueScalar_of_text rfl]
      refine .of_entry ?_ ?_ ?_ fun a ha => own_of_concat ha hopt
      · rw [hopt]
        exact fun o' => update_text s.tskCfg.text o o' tk
      · rw [hopt]
        exact fun _ => rfl
      · rw [hopt]
        exact (List.append_nil _).symm
    | filterPrefix =>
      rw [ParseState.afterKey_filter hopt (hroom hopt), ParseState.valueScalar_of_text rfl]
      refine .of_entry ?_ ?_ ?_ fun a ha => own_of_concat ha hopt
      · rw [hopt]
        exact fun _ => rfl
      · rw [hopt]
        exact fun _ => rfl
      · rw [hopt]
        show (s.tskCfg.filters ++ [none]).set s.tskCfg.filters.length (some tk) = _
        rw [List.set_append_right _ _ (Nat.le_refl _), Nat.sub_self]
        rfl
    | int o =>
      have htextp := (hclear (by rintro ⟨⟩)).1 ⟨o, hopt⟩
      rw [ParseState.afterKey_int hopt, ParseState.valueScalar_of_int
        (s := { s with inValue := true, key := k, intp := some o }) htextp rfl]
      refine .of_entry ?_ ?_ ?_ fun a ha => own_of_concat ha hopt
      · rw [hopt]
        exact fun _ => rfl
      · rw [hopt]
        exact fun o' => update_int s.ints o o' tk
      · rw [hopt]
        exact (List.append_nil _).symm
    | unsupported =>
      obtain ⟨htextp, hintp⟩ := (hclear (by rintro ⟨⟩)).2 hopt
      rw [ParseState.afterKey_unsupported hopt, ParseState.valueScalar_of_none
        (s := { s with inValue := true, key := k }) htextp hintp]
      refine .of_entry ?_ ?_ ?_ fun a ha => .inl ha
      · rw [hopt]
        exact fun _ => rfl
      · rw [hopt]
        exact fun _ => rfl
      · rw [hopt]
        exact (List.append_nil _).symm

/-- The trace only grows. -/
theorem mem_trace_readEntry {s : ParseState} {a : Assignment} (ha : a ∈ s.trace) (e : Entry) :
    a ∈ (s.readEntry e).trace := by
  obtain ⟨k, v⟩ := e
  have hafter : (s.afterKey k).trace = s.trace := by
    unfold ParseState.afterKey ParseState.keyScalar
    cases keyOption k with
    | text o => rfl
    | filterPrefix =>
      dsimp only
      split <;> rfl
    | int o => rfl
    | unsupported => rfl
  cases v with
  | none =>
    show a ∈ (s.afterKey k).trace
    rw [hafter]
    exact ha
  | some tk =>
    show a ∈ ((s.afterKey k).valueScalar tk).trace
    have ha' : a ∈ (s.afterKey k).trace := hafter ▸ ha
    unfold ParseState.valueScalar
    split
    · exact List.mem_append_left _ ha'
    · split
      · exact List.mem_append_left _ ha'
      · exact ha'

/-- An assignment of the value of another key. -/
theorem not_own_text {k : CString} (hno : ∀ o, keyOption k ≠ .text o)
    (hnf : keyOption k ≠ .filterPrefix) (target : TextTarget) (tk : CString) :
    ¬(Assignment.text target k tk).Own := by
  cases target with
  | option o => exact hno o
  | filter i => exact hnf

/-- An entry whose value goes to an earlier key. -/
theorem readEntry_strays {s : ParseState} {e : Entry} (h : ¬s.ClearFor e) :
    ∃ a ∈ (s.readEntry e).trace, ¬a.Own := by
  obtain ⟨k, v⟩ := e
  obtain ⟨hv, hnot⟩ := Classical.not_imp.mp h
  obtain ⟨tk, rfl⟩ : ∃ tk, v = some tk := Option.ne_none_iff_exists'.mp hv
  show ∃ a ∈ ((s.afterKey k).valueScalar tk).trace, ¬a.Own
  rcases not_and_or.mp hnot with hnot | hnot
  · obtain ⟨⟨o, hopt⟩, htextp⟩ := Classical.not_imp.mp hnot
    replace hopt : keyOption k = .int o := hopt
    obtain ⟨target, htarget⟩ := Option.ne_none_iff_exists'.mp htextp
    rw [ParseState.afterKey_int hopt, ParseState.valueScalar_of_text
      (s := { s with inValue := true, key := k, intp := some o }) htarget]
    refine ⟨_, List.mem_append_right _ List.mem_cons_self, not_own_text ?_ ?_ target tk⟩
    · intro o'
      rw [hopt]
      rintro ⟨⟩
    · rw [hopt]
      rintro ⟨⟩
  · obtain ⟨hopt, hwaits⟩ := Classical.not_imp.mp hnot
    replace hopt : keyOption k = .unsupported := hopt
    rw [ParseState.afterKey_unsupported hopt]
    by_cases htextp : s.textp = none
    · obtain ⟨target, htarget⟩ := Option.ne_none_iff_exists'.mp fun hintp => hwaits ⟨htextp, hintp⟩
      rw [ParseState.valueScalar_of_int (s := { s with inValue := true, key := k }) htextp htarget]
      refine ⟨_, List.mem_append_right _ List.mem_cons_self, ?_⟩
      intro hown
      rw [show keyOption k = .int target from hown] at hopt
      cases hopt
    · obtain ⟨target, htarget⟩ := Option.ne_none_iff_exists'.mp htextp
      rw [ParseState.valueScalar_of_text (s := { s with inValue := true, key := k }) htarget]
      refine ⟨_, List.mem_append_right _ List.mem_cons_self, not_own_text ?_ ?_ target tk⟩
      · intro o'
        rw [hopt]
        rintro ⟨⟩
      · rw [hopt]
        rintro ⟨⟩

/-- The pointers say what waits. -/
theorem Reads.clearFor_iff {ints : IntOption → Int32} {seen : Seen} {s : ParseState}
    (h : Reads ints seen s) (e : Entry) : s.ClearFor e ↔ Undisturbed seen.scalars e := by
  have htext : s.textp = none ↔ textWaits seen.scalars = false := by
    rw [← h.text]
    exact Option.isSome_eq_false_iff.trans Option.isNone_iff_eq_none |>.symm
  rw [ParseState.ClearFor, Undisturbed, htext, h.int]

/-! ## All entries -/

/-- The position and the scalars after an entry. -/
theorem run_entryTokens (seen : Seen) (e : Entry) :
    run Seen.next seen (entryTokens e) = ⟨true, pushEntry seen.scalars e⟩ := by
  obtain ⟨k, v⟩ := e
  cases v with
  | none => rfl
  | some tk => rfl

theorem filterKeys_pushEntry (seen : List Scalar) (e : Entry) :
    filterKeys (pushEntry seen e) = filterKeys seen + (filterEntries [e]).length := by
  obtain ⟨k, v⟩ := e
  have hlen : (filterEntries [(k, v)]).length = if keyOption k = .filterPrefix then 1 else 0 := by
    by_cases h : keyOption k = .filterPrefix
    · simp [filterEntries, h]
    · simp [filterEntries, h]
  rw [hlen]
  cases v with
  | none => rfl
  | some tk => rfl

theorem ParseState.switchAll_append (s : ParseState) (ts ts' : List Token) :
    s.switchAll (ts ++ ts') = andThen (s.switchAll ts) fun s => s.switchAll ts' := by
  induction ts generalizing s with
  | nil => rfl
  | cons t ts ih =>
    rw [List.cons_append, switchAll, switchAll]
    rcases s.switch t with ⟨r, s'⟩
    cases r with
    | ok => exact ih s'
    | fail => rfl
    | stop why => rfl

variable {ints : IntOption → Int32}

/-- An entry for which there is room, and the room for the others. -/
theorem entry_reads {seen : Seen} {s : ParseState} (h : Reads ints seen s) {e : Entry}
    {entries : List Entry}
    (hroom : s.tskCfg.filters.length + (filterEntries (e :: entries)).length ≤ maxFilters) :
    (keyOption e.1 = .filterPrefix → s.tskCfg.filters.length < maxFilters) ∧
      Reads ints ⟨true, pushEntry seen.scalars e⟩ (s.readEntry e) ∧
      (s.readEntry e).tskCfg.filters.length + (filterEntries entries).length ≤ maxFilters := by
  rw [filterEntries_cons, List.length_append] at hroom
  have hlt : keyOption e.1 = .filterPrefix → s.tskCfg.filters.length < maxFilters := by
    intro hopt
    have hone : (filterEntries [e]).length = 1 := by simp [filterEntries, hopt]
    omega
  have hreads := switchAll_reads h (entryTokens e)
  rw [ParseState.switchAll_entry s hlt, run_entryTokens] at hreads
  obtain ⟨-, hreads⟩ := hreads.resolve_right fun hstop => by cases hstop.1
  have hfilters : (s.readEntry e).tskCfg.filters.length
      = filterKeys (pushEntry seen.scalars e) := hreads.filters
  rw [filterKeys_pushEntry, ← h.filters] at hfilters
  exact ⟨hlt, hreads, by omega⟩

/-- The entries are read one by one unless there are too many filters. -/
theorem switchAll_entries {seen : Seen} {s : ParseState} (h : Reads ints seen s)
    {entries : List Entry}
    (hroom : s.tskCfg.filters.length + (filterEntries entries).length ≤ maxFilters) :
    s.switchAll (entries.flatMap entryTokens) = (.ok, run ParseState.readEntry s entries) := by
  induction entries generalizing seen s with
  | nil => rfl
  | cons e entries ih =>
    obtain ⟨hlt, hreads, hroom'⟩ := entry_reads h hroom
    rw [List.flatMap_cons, ParseState.switchAll_append, ParseState.switchAll_entry s hlt,
      andThen_ok, run_cons]
    exact ih hreads hroom'

theorem mem_trace_run {s : ParseState} {a : Assignment} (ha : a ∈ s.trace)
    (entries : List Entry) : a ∈ (run ParseState.readEntry s entries).trace :=
  run_rel (fun s s' : ParseState => ∀ a ∈ s.trace, a ∈ s'.trace) (fun _ _ ha => ha)
    (fun _ _ _ h h' a ha => h' a (h a ha)) (fun _ e _ ha => mem_trace_readEntry ha e) s entries a ha

/-- **Where values go**: to their own keys if no entry is disturbed, and somewhere
else if one is. -/
theorem run_entries {seen : Seen} {s : ParseState} (h : Reads ints seen s) {entries : List Entry}
    (hroom : s.tskCfg.filters.length + (filterEntries entries).length ≤ maxFilters) :
    (Along pushEntry Undisturbed seen.scalars entries →
        Effects s entries (run ParseState.readEntry s entries)) ∧
      ((∀ a ∈ (run ParseState.readEntry s entries).trace, a.Own) →
        Along pushEntry Undisturbed seen.scalars entries) := by
  induction entries generalizing seen s with
  | nil => exact ⟨fun _ => Effects.refl s, fun _ => trivial⟩
  | cons e entries ih =>
    obtain ⟨hlt, hreads, hroom'⟩ := entry_reads h hroom
    obtain ⟨hto, hfrom⟩ := ih hreads hroom'
    constructor
    · rintro ⟨hfree, halong⟩
      exact (readEntry_effects hlt ((h.clearFor_iff e).mpr hfree)).trans (hto halong)
    · intro hown
      refine ⟨?_, hfrom hown⟩
      by_contra hfree
      obtain ⟨a, ha, hnot⟩ := readEntry_strays fun hclear => hfree ((h.clearFor_iff e).mp hclear)
      exact hnot (hown a (mem_trace_run ha entries))

/-! ## The file -/

/-- The number of `filter-prefix` keys of some entries. -/
theorem filterKeys_entries (seen : Seen) (entries : List Entry) :
    filterKeys (run Seen.next seen (entries.flatMap entryTokens)).scalars
      = filterKeys seen.scalars + (filterEntries entries).length := by
  induction entries generalizing seen with
  | nil => rfl
  | cons e entries ih =>
    rw [List.flatMap_cons, run_append, run_entryTokens, ih, filterKeys_pushEntry,
      filterEntries_cons e entries, List.length_append, Nat.add_assoc]

theorem streamEnd_not_mem_entryTokens (e : Entry) : Token.streamEnd ∉ entryTokens e := by
  obtain ⟨k, v⟩ := e
  cases v with
  | none => simp [entryTokens]
  | some tk => simp [entryTokens]

/-- The tokens that are not of the entries have no effect. -/
theorem parseConfigFile_file (entries : List Entry) (ints : IntOption → Int32) :
    parseConfigFile true (fileTokens entries).length (fileTokens entries) ints
      = andThen ((ParseState.init ints).switchAll (entries.flatMap entryTokens))
          ParseState.lengths := by
  have hbody : Token.streamEnd ∉ [.other, .other] ++ entries.flatMap entryTokens ++ [.other] := by
    intro hmem
    rcases List.mem_append.mp hmem with hmem | hmem
    · rcases List.mem_append.mp hmem with hmem | hmem
      · simp at hmem
      · obtain ⟨e, -, he⟩ := List.mem_flatMap.mp hmem
        exact streamEnd_not_mem_entryTokens e he
    · simp at hmem
  have hlen : ([.other, .other] ++ entries.flatMap entryTokens ++ [.other] : List Token).length
      < (fileTokens entries).length := by
    simp only [fileTokens, List.length_append]
    exact Nat.lt_succ_self _
  have hloop := tokenLoop_stream hbody [] (.init ints) hlen
  rw [parseConfigFile, if_pos rfl, fileTokens] at *
  rw [hloop, ParseState.switchAll_append, ParseState.switchAll_append]
  show andThen (andThen ((ParseState.init ints).switchAll _) _) _ = _
  generalize (ParseState.init ints).switchAll (entries.flatMap entryTokens) = r
  obtain ⟨r, s⟩ := r
  cases r with
  | ok => rfl
  | fail => rfl
  | stop why => rfl

/-- If all filters have a value, they are what was given. -/
theorem filters_given {entries : List Entry} (h : ∀ e ∈ filterEntries entries, e.2 ≠ none) :
    (filterEntries entries).map Prod.snd
      = ((given entries).filter fun w => w.1 = filterName).map fun w => some w.2 := by
  induction entries with
  | nil => rfl
  | cons e entries ih =>
    obtain ⟨k, v⟩ := e
    rw [filterEntries_cons (k, v) entries] at h ⊢
    have ih' := ih fun e he => h e (List.mem_append_right _ he)
    rw [List.map_append, ih', show given ((k, v) :: entries) = given [(k, v)] ++ given entries
      from given_append [(k, v)] entries, List.filter_append, List.map_append]
    congr 1
    by_cases hopt : keyOption k = .filterPrefix
    · have hk : k = filterName := keyOption_eq_filterPrefix.mp hopt
      cases v with
      | none => exact absurd rfl (h (k, none) (by simp [filterEntries, hopt]))
      | some tk =>
        subst hk
        simp [filterEntries, given, hopt]
    · have hk : k ≠ filterName := fun heq => hopt (keyOption_eq_filterPrefix.mpr heq)
      cases v with
      | none => simp [filterEntries, given, hopt]
      | some tk => simp [filterEntries, given, hopt, hk]

theorem lengths_of_all {s : ParseState} (h : s.tskCfg.filters.all Option.isSome = true) :
    s.lengths.1 = .ok ∧ s.lengths.2.tskCfg.text = s.tskCfg.text ∧ s.lengths.2.ints = s.ints ∧
      s.lengths.2.tskCfg.filters = s.tskCfg.filters ∧ s.lengths.2.trace = s.trace := by
  unfold ParseState.lengths
  dsimp only
  rw [if_pos h]
  exact ⟨rfl, rfl, rfl, rfl, rfl⟩

theorem lengths_ok {s : ParseState} (h : s.lengths.1 = .ok) :
    s.tskCfg.filters.all Option.isSome = true := by
  unfold ParseState.lengths at h
  dsimp only at h
  by_contra hnot
  rw [if_neg hnot] at h
  cases h

/-- A loop that was left did not stop for want of room. -/
theorem few_of_returns {entries : List Entry}
    (hok : (andThen ((ParseState.init ints).switchAll (entries.flatMap entryTokens))
      ParseState.lengths).1 = .ok) : (filterEntries entries).length ≤ maxFilters := by
  rcases switchAll_reads (reads_init ints) (entries.flatMap entryTokens) with
    ⟨-, hend⟩ | ⟨hstop, -⟩
  · have hbound := hend.bound
    rw [filterKeys_entries] at hbound
    exact Nat.le_trans (Nat.le_add_left _ _) hbound
  · rcases hall : (ParseState.init ints).switchAll (entries.flatMap entryTokens) with ⟨r, s⟩
    rw [hall] at hok hstop
    obtain rfl : r = .stop .assertFailed := hstop
    cases hok

/-- The first variables have room for some filters that are few. -/
theorem room_of_few {entries : List Entry} (h : (filterEntries entries).length ≤ maxFilters) :
    (ParseState.init ints).tskCfg.filters.length + (filterEntries entries).length
      ≤ maxFilters :=
  (Nat.zero_add _).symm ▸ h

/-- A file whose values all went to their own keys. -/
theorem Tidy.of_ownValues {entries : List Entry}
    (h : OwnValues ints entries
      (andThen ((ParseState.init ints).switchAll (entries.flatMap entryTokens))
        ParseState.lengths)) : Tidy entries := by
  have hok := h.returns
  have hfew := few_of_returns hok
  rw [switchAll_entries (reads_init ints) (room_of_few hfew), andThen_ok] at h hok
  have hall := lengths_ok hok
  obtain ⟨-, -, -, -, htrace⟩ := lengths_of_all hall
  obtain ⟨hto, hfrom⟩ := run_entries (reads_init ints) (room_of_few hfew)
  have hundisturbed := hfrom fun a ha => h.own a (htrace ▸ ha)
  have hfilters := (hto hundisturbed).filters
  refine ⟨fun e he hnone => ?_, hfew, hundisturbed⟩
  rw [hfilters, List.all_eq_true] at hall
  have := hall e.2 (List.mem_append_right _ (List.mem_map_of_mem he))
  rw [hnone] at this
  cases this

/-- Nothing goes astray in a tidy file. -/
theorem Tidy.ownValues {entries : List Entry} (h : Tidy entries) :
    OwnValues ints entries
      (andThen ((ParseState.init ints).switchAll (entries.flatMap entryTokens))
        ParseState.lengths) := by
  have heffects := (run_entries (reads_init ints) (room_of_few h.few)).1 h.undisturbed
  have hfilters : (run ParseState.readEntry (.init ints) entries).tskCfg.filters
      = (filterEntries entries).map Prod.snd := heffects.filters
  have hall : (run ParseState.readEntry (.init ints) entries).tskCfg.filters.all Option.isSome
      = true := by
    rw [hfilters, List.all_eq_true]
    intro v hv
    obtain ⟨e, he, rfl⟩ := List.mem_map.mp hv
    exact Option.isSome_iff_ne_none.mpr (h.values e he)
  obtain ⟨hok, htext, hints, hsame, htrace⟩ := lengths_of_all hall
  rw [switchAll_entries (reads_init ints) (room_of_few h.few), andThen_ok]
  constructor
  · exact hok
  · intro o
    rw [htext, heffects.text]
    exact Option.or_none
  · intro o
    rw [hints, heffects.ints]
    rfl
  · rw [hsame, hfilters]
    exact filters_given h.values
  · rw [hsame, hfilters, List.length_map]
    exact h.few
  · intro a ha
    rw [htrace] at ha
    rcases heffects.trace a ha with hnone | hown
    · cases hnone
    · exact hown

/-- **Values go to their own keys** if and only if the entries are tidy. -/
theorem parseConfigFile_ownValues_iff (entries : List Entry) (ints : IntOption → Int32) :
    OwnValues ints entries
        (parseConfigFile true (fileTokens entries).length (fileTokens entries) ints) ↔
      Tidy entries := by
  rw [parseConfigFile_file]
  exact ⟨Tidy.of_ownValues, Tidy.ownValues⟩

/-- A channel without a value, and an option the proxy does not know. -/
def untidyEntries : List Entry :=
  [(CString.ofAscii "kafka-channel", none),
    (CString.ofAscii "kafka-partition", some (CString.ofAscii "3"))]

/-- The channel becomes the value of the unknown option. -/
theorem untidyEntries_not_own :
    ¬OwnValues (fun _ => 0) untidyEntries
      (parseConfigFile true (fileTokens untidyEntries).length (fileTokens untidyEntries)
        fun _ => 0) := by
  intro h
  have htext := h.text .kafkaChannel
  exact absurd htext (by decide +kernel)

end TskProxy

end Libtimeseries
