import Libtimeseries.TskConfig
import Libtimeseries.TskProxySpec

/-!
# The token loop

What the loop has pending depends on the scalars it has seen, and can be read
off them looking back from the last one:

- `textWaits`: a string option waits for a value if no value came after its key;
- `intWaits`: a number waits if no other number's key came after its own, and
  each value that did went to a string that waited;
- `lastInt`: the last value that found a number waiting, and no string;
- `Reads`: the variables of the loop are what the scalars seen say.

The loop is left by the stream-end token only. A file that libyaml rejects has
none, so for such a file it never ends.
-/

namespace Libtimeseries

open ByteLib RunLib

namespace TskProxy

/-! ## Scalars -/

/-- A scalar, in key or value position. -/
inductive Scalar where
  | key (tk : CString)
  | value (tk : CString)

/-- The tokens so far: the position, and the scalars, the last one first. -/
structure Seen where
  inValue : Bool
  scalars : List Scalar

def Seen.next (seen : Seen) : Token → Seen
  | .key => { seen with inValue := false }
  | .value => { seen with inValue := true }
  | .scalar tk =>
    { seen with scalars := (if seen.inValue then .value tk else .key tk) :: seen.scalars }
  | .streamEnd => seen
  | .noToken => seen
  | .other => seen

/-- The scalars of some tokens, the last one first. -/
def scalarsIn (tokens : List Token) : List Scalar := (run Seen.next ⟨false, []⟩ tokens).scalars

/-- A string option or a filter waits for its value. -/
def textWaits : List Scalar → Bool
  | [] => false
  | .value _ :: _ => false
  | .key tk :: seen =>
    match keyOption tk with
    | .text _ => true
    | .filterPrefix => true
    | .int _ => textWaits seen
    | .unsupported => textWaits seen

/-- The number that waits for its value. -/
def intWaits : List Scalar → Option IntOption
  | [] => none
  | .value _ :: seen => if textWaits seen then intWaits seen else none
  | .key tk :: seen =>
    match keyOption tk with
    | .int o => some o
    | .text _ => intWaits seen
    | .filterPrefix => intWaits seen
    | .unsupported => intWaits seen

/-- The last value that found a number waiting, and no string. -/
def lastInt (o : IntOption) : List Scalar → Option CString
  | [] => none
  | .value tk :: seen =>
    if textWaits seen = false ∧ intWaits seen = some o then some tk else lastInt o seen
  | .key _ :: seen => lastInt o seen

/-- The number of `filter-prefix` keys. -/
def filterKeys : List Scalar → Nat
  | [] => 0
  | .value _ :: seen => filterKeys seen
  | .key tk :: seen => filterKeys seen + if keyOption tk = .filterPrefix then 1 else 0

/-! ## The variables of the loop -/

/-- The variables are what the scalars seen say; `ints` are the initial numbers. -/
structure Reads (ints : IntOption → Int32) (seen : Seen) (s : ParseState) : Prop where
  inValue : s.inValue = seen.inValue
  text : s.textp.isSome = textWaits seen.scalars
  int : s.intp = intWaits seen.scalars
  ints : ∀ o, s.ints o = ((lastInt o seen.scalars).map fun tk => atoi tk.bytes).getD (ints o)
  filters : s.tskCfg.filters.length = filterKeys seen.scalars
  bound : filterKeys seen.scalars ≤ maxFilters

theorem reads_init (ints : IntOption → Int32) : Reads ints ⟨false, []⟩ (.init ints) :=
  ⟨rfl, rfl, rfl, fun _ => rfl, rfl, Nat.zero_le _⟩

variable {ints : IntOption → Int32} {seen : Seen} {s : ParseState}

/-- A scalar in key position leaves the numbers alone. -/
theorem Reads.pushKey (h : Reads ints seen s) (hkey : seen.inValue = false) {tk : CString}
    {s' : ParseState} (hinValue : s'.inValue = s.inValue) (hints : s'.ints = s.ints)
    (htext : s'.textp.isSome = textWaits (.key tk :: seen.scalars))
    (hint : s'.intp = intWaits (.key tk :: seen.scalars))
    (hfilters : s'.tskCfg.filters.length = filterKeys (.key tk :: seen.scalars))
    (hbound : filterKeys (.key tk :: seen.scalars) ≤ maxFilters) :
    Reads ints (seen.next (.scalar tk)) s' := by
  have hnext : (seen.next (.scalar tk)).scalars = .key tk :: seen.scalars := by
    unfold Seen.next
    rw [hkey]
    rfl
  constructor
  · exact hinValue.trans h.inValue
  · rw [hnext]
    exact htext
  · rw [hnext]
    exact hint
  · intro o
    rw [hnext, hints]
    exact h.ints o
  · rw [hnext]
    exact hfilters
  · rw [hnext]
    exact hbound

/-- Keys other than `filter-prefix` do not count. -/
theorem filterKeys_of_ne {tk : CString} {seen : List Scalar} (h : keyOption tk ≠ .filterPrefix) :
    filterKeys (.key tk :: seen) = filterKeys seen := by
  rw [filterKeys, if_neg h, Nat.add_zero]

/-- A scalar in key position: only the assertion on the filters can fail. -/
theorem keyScalar_reads (h : Reads ints seen s) (hkey : seen.inValue = false) (tk : CString) :
    ((s.keyScalar tk).1 = .ok ∧ Reads ints (seen.next (.scalar tk)) (s.keyScalar tk).2) ∨
      ((s.keyScalar tk).1 = .stop .assertFailed ∧
        maxFilters < filterKeys (seen.next (.scalar tk)).scalars) := by
  have hfilters := h.filters
  have hbound := h.bound
  unfold ParseState.keyScalar
  cases hopt : keyOption tk with
  | int o =>
    have hkeys : filterKeys (.key tk :: seen.scalars) = filterKeys seen.scalars :=
      filterKeys_of_ne (by rw [hopt]; rintro ⟨⟩)
    refine .inl ⟨rfl, h.pushKey hkey rfl rfl ?_ ?_ (hkeys ▸ hfilters) (hkeys ▸ hbound)⟩
    · rw [textWaits, hopt]
      exact h.text
    · rw [intWaits, hopt]
  | filterPrefix =>
    have hkeys : filterKeys (.key tk :: seen.scalars) = filterKeys seen.scalars + 1 := by
      rw [filterKeys, hopt]
      rfl
    dsimp only
    split
    · next hlt =>
      refine .inl ⟨rfl, h.pushKey hkey rfl rfl ?_ ?_ ?_ (by omega)⟩
      · rw [textWaits, hopt]
        rfl
      · rw [intWaits, hopt]
        exact h.int
      · rw [hkeys, List.length_append, hfilters]
        rfl
    · next hge =>
      refine .inr ⟨rfl, ?_⟩
      unfold Seen.next
      rw [hkey]
      show maxFilters < filterKeys (.key tk :: seen.scalars)
      omega
  | text o =>
    have hkeys : filterKeys (.key tk :: seen.scalars) = filterKeys seen.scalars :=
      filterKeys_of_ne (by rw [hopt]; rintro ⟨⟩)
    refine .inl ⟨rfl, h.pushKey hkey rfl rfl ?_ ?_ (hkeys ▸ hfilters) (hkeys ▸ hbound)⟩
    · rw [textWaits, hopt]
      rfl
    · rw [intWaits, hopt]
      exact h.int
  | unsupported =>
    have hkeys : filterKeys (.key tk :: seen.scalars) = filterKeys seen.scalars :=
      filterKeys_of_ne (by rw [hopt]; rintro ⟨⟩)
    refine .inl ⟨rfl, h.pushKey hkey rfl rfl ?_ ?_ (hkeys ▸ hfilters) (hkeys ▸ hbound)⟩
    · rw [textWaits, hopt]
      exact h.text
    · rw [intWaits, hopt]
      exact h.int

theorem assign_filters_length (c : TskConfig) (tk : CString) (target : TextTarget) :
    (c.assign tk target).filters.length = c.filters.length := by
  cases target with
  | option o => rfl
  | filter i => exact List.length_set

/-- After a scalar in value position no string waits. -/
theorem Reads.pushValue (h : Reads ints seen s) (hvalue : seen.inValue = true) {tk : CString}
    {s' : ParseState} (hinValue : s'.inValue = s.inValue) (htext : s'.textp = none)
    (hint : s'.intp = intWaits (.value tk :: seen.scalars))
    (hints : ∀ o, s'.ints o
      = ((lastInt o (.value tk :: seen.scalars)).map fun tk => atoi tk.bytes).getD (ints o))
    (hfilters : s'.tskCfg.filters.length = s.tskCfg.filters.length) :
    Reads ints (seen.next (.scalar tk)) s' := by
  have hnext : (seen.next (.scalar tk)).scalars = .value tk :: seen.scalars := by
    unfold Seen.next
    rw [hvalue]
    rfl
  constructor
  · exact hinValue.trans h.inValue
  · rw [hnext, htext]
    rfl
  · rw [hnext]
    exact hint
  · rw [hnext]
    exact hints
  · rw [hnext]
    exact hfilters.trans h.filters
  · rw [hnext]
    exact h.bound

/-- A scalar in value position. -/
theorem valueScalar_reads (h : Reads ints seen s) (hvalue : seen.inValue = true) (tk : CString) :
    Reads ints (seen.next (.scalar tk)) (s.valueScalar tk) := by
  have htext := h.text
  have hint := h.int
  unfold ParseState.valueScalar
  cases htextp : s.textp with
  | some target =>
    have hwaits : textWaits seen.scalars = true := by
      rw [← htext, htextp]
      rfl
    refine h.pushValue hvalue rfl rfl ?_ (fun o => ?_) (assign_filters_length _ tk target)
    · rw [intWaits, if_pos hwaits]
      exact hint
    · rw [lastInt, if_neg (fun hlast => by rw [hwaits] at hlast; cases hlast.1)]
      exact h.ints o
  | none =>
    have hwaits : textWaits seen.scalars = false := by
      rw [← htext, htextp]
      rfl
    have hnone : intWaits (.value tk :: seen.scalars) = none := by
      rw [intWaits, if_neg (by rw [hwaits]; rintro ⟨⟩)]
    cases hintp : s.intp with
    | some target =>
      rw [hintp] at hint
      refine h.pushValue hvalue rfl rfl hnone.symm (fun o => ?_) rfl
      rw [lastInt]
      by_cases ho : target = o
      · subst ho
        rw [if_pos ⟨hwaits, hint.symm⟩]
        exact Function.update_self target (atoi tk.bytes) s.ints
      · rw [if_neg (fun hlast => ho (Option.some.inj (hint.trans hlast.2)))]
        exact (Function.update_of_ne (Ne.symm ho) (atoi tk.bytes) s.ints).trans (h.ints o)
    | none =>
      rw [hintp] at hint
      refine h.pushValue hvalue rfl htextp (hintp.trans hnone.symm) (fun o => ?_) rfl
      rw [lastInt, if_neg (fun hlast => by rw [← hint] at hlast; cases hlast.2)]
      exact h.ints o

/-- **One token**. -/
theorem switch_reads (h : Reads ints seen s) (t : Token) :
    ((s.switch t).1 = .ok ∧ Reads ints (seen.next t) (s.switch t).2) ∨
      ((s.switch t).1 = .stop .assertFailed ∧ maxFilters < filterKeys (seen.next t).scalars) := by
  cases t with
  | key => exact .inl ⟨rfl, ⟨rfl, h.text, h.int, h.ints, h.filters, h.bound⟩⟩
  | value => exact .inl ⟨rfl, ⟨rfl, h.text, h.int, h.ints, h.filters, h.bound⟩⟩
  | scalar tk =>
    cases hvalue : seen.inValue with
    | true =>
      rw [ParseState.switch_value (h.inValue.trans hvalue)]
      exact .inl ⟨rfl, valueScalar_reads h hvalue tk⟩
    | false =>
      rw [ParseState.switch_key (h.inValue.trans hvalue)]
      exact keyScalar_reads h hvalue tk
  | streamEnd => exact .inl ⟨rfl, h⟩
  | noToken => exact .inl ⟨rfl, h⟩
  | other => exact .inl ⟨rfl, h⟩

theorem filterKeys_next (seen : Seen) (t : Token) :
    filterKeys seen.scalars ≤ filterKeys (seen.next t).scalars := by
  cases t with
  | scalar tk =>
    unfold Seen.next
    cases seen.inValue with
    | true => exact Nat.le_refl _
    | false => exact Nat.le_add_right _ _
  | key => exact Nat.le_refl _
  | value => exact Nat.le_refl _
  | streamEnd => exact Nat.le_refl _
  | noToken => exact Nat.le_refl _
  | other => exact Nat.le_refl _

theorem filterKeys_run (seen : Seen) (ts : List Token) :
    filterKeys seen.scalars ≤ filterKeys (run Seen.next seen ts).scalars :=
  run_rel (fun seen seen' : Seen => filterKeys seen.scalars ≤ filterKeys seen'.scalars)
    (fun _ => Nat.le_refl _) (fun _ _ _ => Nat.le_trans) filterKeys_next seen ts

/-- The `switch` for some tokens, one after the other. -/
def ParseState.switchAll : List Token → ParseState → Ret × ParseState
  | [], s => (.ok, s)
  | t :: ts, s => andThen (s.switch t) (switchAll ts)

/-- **Some tokens**: they are read unless there are too many filters. -/
theorem switchAll_reads (h : Reads ints seen s) (ts : List Token) :
    ((s.switchAll ts).1 = .ok ∧ Reads ints (run Seen.next seen ts) (s.switchAll ts).2) ∨
      ((s.switchAll ts).1 = .stop .assertFailed ∧
        maxFilters < filterKeys (run Seen.next seen ts).scalars) := by
  induction ts generalizing seen s with
  | nil => exact .inl ⟨rfl, h⟩
  | cons t ts ih =>
    have hswitch := switch_reads h t
    rw [ParseState.switchAll]
    generalize s.switch t = r at hswitch ⊢
    obtain ⟨r, s'⟩ := r
    rcases hswitch with ⟨hok, h'⟩ | ⟨hstop, hmany⟩
    · obtain rfl : r = .ok := hok
      exact ih h'
    · obtain rfl : r = .stop .assertFailed := hstop
      exact .inr ⟨rfl, Nat.lt_of_lt_of_le hmany (filterKeys_run (seen.next t) ts)⟩

/-! ## The loop -/

/-- The tokens before the end of the stream. -/
def upToEnd (tokens : List Token) : List Token := tokens.takeWhile (· ≠ .streamEnd)

theorem upToEnd_append {body : List Token} (h : Token.streamEnd ∉ body) (rest : List Token) :
    upToEnd (body ++ .streamEnd :: rest) = body :=
  takeWhile_ne_append h rest

/-- A stream that ends is read to its end. -/
theorem tokenLoop_stream {body : List Token} (h : Token.streamEnd ∉ body) (rest : List Token)
    (s : ParseState) {fuel : Nat} (hfuel : body.length < fuel) :
    tokenLoop fuel (body ++ .streamEnd :: rest) s = s.switchAll body := by
  induction body generalizing s fuel with
  | nil =>
    obtain ⟨fuel, rfl⟩ := Nat.exists_eq_succ_of_ne_zero (Nat.ne_of_gt hfuel)
    rfl
  | cons t body ih =>
    obtain ⟨fuel, rfl⟩ := Nat.exists_eq_succ_of_ne_zero (Nat.ne_of_gt (Nat.zero_lt_of_lt hfuel))
    rw [List.mem_cons, not_or] at h
    rw [List.cons_append, tokenLoop, ParseState.switchAll]
    show andThen (s.switch t) _ = _
    congr 1
    funext s'
    exact (if_pos (Ne.symm h.1)).trans (ih h.2 s' (Nat.lt_of_succ_lt_succ hfuel))

/-- The loop is left by the stream-end token only. -/
theorem tokenLoop_exits {fuel : Nat} {ts : List Token} {s : ParseState}
    (h : (tokenLoop fuel ts s).1 = .ok) :
    ∃ body rest, ts = body ++ .streamEnd :: rest ∧ Token.streamEnd ∉ body ∧
      tokenLoop fuel ts s = s.switchAll body := by
  induction fuel generalizing ts s with
  | zero => cases h
  | succ fuel ih =>
    cases ts with
    | nil =>
      obtain ⟨body, rest, hnil, -⟩ := @ih [] s h
      cases body <;> cases hnil
    | cons t ts =>
      by_cases hend : t = .streamEnd
      · subst hend
        exact ⟨[], ts, rfl, List.not_mem_nil, rfl⟩
      · have hloop : tokenLoop (fuel + 1) (t :: ts) s
            = andThen (s.switch t) (tokenLoop fuel ts) := by
          rw [tokenLoop]
          show andThen (s.switch t) _ = _
          congr 1
          funext s'
          exact if_pos hend
        rw [hloop] at h ⊢
        rcases hswitch : s.switch t with ⟨r, s'⟩
        rw [hswitch] at h
        cases r with
        | ok =>
          obtain ⟨body, rest, hts, hbody, hall⟩ := ih h
          refine ⟨t :: body, rest, by rw [hts, List.cons_append], ?_, ?_⟩
          · rw [List.mem_cons, not_or]
            exact ⟨Ne.symm hend, hbody⟩
          · rw [ParseState.switchAll, hswitch]
            exact hall
        | fail => cases h
        | stop why => cases h

/-- The token loop reaches its exit. -/
def ReachesExit (tokens : List Token) (ints : IntOption → Int32) : Prop :=
  ∃ fuel, (tokenLoop fuel tokens (.init ints)).1 = .ok

/-- **When the loop ends**: the stream ends, and there are not too many filters. -/
theorem reachesExit_iff (tokens : List Token) (ints : IntOption → Int32) :
    ReachesExit tokens ints ↔
      .streamEnd ∈ tokens ∧ filterKeys (scalarsIn (upToEnd tokens)) ≤ maxFilters := by
  constructor
  · rintro ⟨fuel, hok⟩
    obtain ⟨body, rest, rfl, hbody, hall⟩ := tokenLoop_exits hok
    refine ⟨List.mem_append_right body List.mem_cons_self, ?_⟩
    rw [upToEnd_append hbody]
    rcases switchAll_reads (reads_init ints) body with ⟨-, hreads⟩ | ⟨hstop, -⟩
    · exact hreads.bound
    · rw [hall, hstop] at hok
      cases hok
  · rintro ⟨hend, hfilters⟩
    obtain ⟨body, rest, rfl, hbody⟩ := List.eq_append_cons_of_mem hend
    rw [upToEnd_append hbody] at hfilters
    refine ⟨body.length + 1, ?_⟩
    rw [tokenLoop_stream hbody rest _ (Nat.lt_succ_self _)]
    rcases switchAll_reads (reads_init ints) body with ⟨hok, -⟩ | ⟨-, hmany⟩
    · exact hok
    · exact absurd hfilters (Nat.not_le.mpr hmany)

/-- A file whose first token is an error: the loop gets the stream start, and then
empty tokens. -/
theorem malformed_not_reachesExit : ¬ReachesExit [.other] (fun _ => 0) := by
  rintro ⟨fuel, hok⟩
  obtain ⟨body, rest, heq, -⟩ := tokenLoop_exits hok
  have hmem : Token.streamEnd ∈ [Token.other] := heq ▸ List.mem_append_right body List.mem_cons_self
  exact absurd hmem (by decide)

end TskProxy

end Libtimeseries
