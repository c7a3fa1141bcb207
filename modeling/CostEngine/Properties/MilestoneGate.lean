import CostEngine.Milestone.Results

/-! # The milestone gate is never falsely green

What a text says about the counters is said of its lines (`IsSummary`, `TapEvidence`), and
what the runner did is read off its events. -/

namespace CostEngine

open Multiline (lineStarts)

/-! ## Summary lines -/

/-- The text begins with the line `# key value`, which is not indented. The value is what
stands before the next CR or LF, or before the end of the text. -/
structure IsSummary (line : List Char) (key : CountKey) (value : List Char) : Prop where
  words : ∃ gap gap' rest, line = '#' :: (gap ++ (key.word ++ (gap' ++ (value ++ rest))))
    ∧ gap ≠ [] ∧ (∀ c ∈ gap, isBlank c = true) ∧ gap' ≠ [] ∧ (∀ c ∈ gap', isBlank c = true)
    ∧ ∀ c ∈ rest.head?, isLineChar c = false
  plain : ∀ c ∈ value, isLineChar c = true
  flush : ∀ c ∈ value.head?, isBlank c = false

/-! ### Reading a line -/

theorem takeWhile_dropWhile_eq {p : Char → Bool} {xs ys : List Char}
    (hxs : ∀ c ∈ xs, p c = true) (hys : ∀ c ∈ ys.head?, p c = false) :
    (xs ++ ys).takeWhile p = xs ∧ (xs ++ ys).dropWhile p = ys := by
  rw [List.takeWhile_append_of_pos hxs, List.dropWhile_append_of_pos hxs]
  cases ys with
  | nil => exact ⟨List.append_nil _, rfl⟩
  | cons y ys =>
      have hy := hys y rfl
      simp [hy]

theorem head?_dropWhile {p : Char → Bool} {xs : List Char} :
    ∀ c ∈ (xs.dropWhile p).head?, p c = false := by
  induction xs with
  | nil => intro c hc; cases hc
  | cons x xs ih =>
      intro c hc
      rw [List.dropWhile_cons] at hc
      split at hc
      · exact ih c hc
      · rename_i hx
        obtain rfl : x = c := by simpa using hc
        simpa using hx

theorem isBlank_of_end {c : Char} (h : isLineChar c = false) : isBlank c = false := by
  simp only [isLineChar, Bool.and_eq_false_iff, decide_eq_false_iff_not, not_not] at h
  rcases h with rfl | rfl <;> rfl

/-- No counter's word is the beginning of another. -/
theorem find?_word (key : CountKey) (rest : List Char) :
    CountKey.all.find? (·.word.isPrefixOf (key.word ++ rest)) = some key := by
  cases key <;> rfl

theorem head?_word {key : CountKey} {rest : List Char} :
    ∀ c ∈ (key.word ++ rest).head?, isBlank c = false := by
  cases key <;> rintro c ⟨⟩ <;> rfl

/-! ### What the pattern reads -/

/-- What the pattern reads is a summary line, and the match is the line with its CR. -/
theorem summaryLine?_cases {line value : List Char} {key : CountKey} {n : Nat}
    (h : summaryLine? line = some ((key, value), n)) :
    IsSummary line key value ∧ ∃ taken rest, line = '#' :: (taken ++ rest)
      ∧ n = taken.length + 1
      ∧ ∀ c ∈ taken, c ∈ value ∨ c ∈ key.word ∨ isBlank c = true ∨ c = '\r' := by
  unfold summaryLine? at h
  split at h
  swap
  · cases h
  rename_i text
  dsimp only at h
  split at h
  · cases h
  rename_i hgap
  split at h
  · cases h
  rename_i key' hfind
  split at h
  · cases h
  rename_i hgap'
  obtain ⟨⟨rfl, rfl⟩, rfl⟩ := by simpa only [Option.some.injEq, Prod.mk.injEq] using h
  have hprefix : key'.word.isPrefixOf (text.dropWhile isBlank) = true :=
    List.find?_some (p := fun key : CountKey => key.word.isPrefixOf (text.dropWhile isBlank))
      hfind
  obtain ⟨tail, htail⟩ := List.isPrefixOf_iff_prefix.mp hprefix
  have hdrop : (text.dropWhile isBlank).drop key'.word.length = tail := by
    rw [← htail, List.drop_left]
  rw [hdrop] at hgap' ⊢
  have htext : text = text.takeWhile isBlank ++ (key'.word ++ (tail.takeWhile isBlank
      ++ ((tail.dropWhile isBlank).takeWhile isLineChar
        ++ (tail.dropWhile isBlank).dropWhile isLineChar))) := by
    rw [List.takeWhile_append_dropWhile, List.takeWhile_append_dropWhile, htail,
      List.takeWhile_append_dropWhile]
  constructor
  · refine ⟨⟨text.takeWhile isBlank, tail.takeWhile isBlank, _, congrArg _ htext, hgap,
      fun c hc => List.mem_takeWhile_imp hc, hgap', fun c hc => List.mem_takeWhile_imp hc,
      head?_dropWhile⟩, fun c hc => List.mem_takeWhile_imp hc, ?_⟩
    intro c hc
    have hhead : ∀ c ∈ (tail.dropWhile isBlank).head?, isBlank c = false := head?_dropWhile
    refine hhead c ?_
    cases htail' : tail.dropWhile isBlank with
    | nil =>
        rw [htail'] at hc
        cases hc
    | cons d ds =>
        rw [htail', List.takeWhile_cons] at hc
        split at hc
        · exact hc
        · cases hc
  · obtain ⟨ret, rest, hrest, hlength, hret⟩ :
        ∃ ret rest, (tail.dropWhile isBlank).dropWhile isLineChar = ret ++ rest
          ∧ returnLength ((tail.dropWhile isBlank).dropWhile isLineChar) = ret.length
          ∧ ∀ c ∈ ret, c = '\r' := by
      generalize (tail.dropWhile isBlank).dropWhile isLineChar = after
      unfold returnLength
      split
      · split
        · exact ⟨['\r'], _, rfl, rfl, by simp⟩
        · exact ⟨[], _, rfl, rfl, by simp⟩
      · exact ⟨[], _, rfl, rfl, by simp⟩
    refine ⟨text.takeWhile isBlank ++ (key'.word ++ (tail.takeWhile isBlank
      ++ ((tail.dropWhile isBlank).takeWhile isLineChar ++ ret))), rest, ?_, ?_, ?_⟩
    · simp only [List.append_assoc, ← hrest]
      exact congrArg _ htext
    · simp only [List.length_append, hlength]
      omega
    · intro c hc
      simp only [List.mem_append] at hc
      rcases hc with hc | hc | hc | hc | hc
      · exact .inr (.inr (.inl (List.mem_takeWhile_imp hc)))
      · exact .inr (.inl hc)
      · exact .inr (.inr (.inl (List.mem_takeWhile_imp hc)))
      · exact .inl hc
      · exact .inr (.inr (.inr (hret c hc)))

/-- The pattern reads a text exactly if it begins with a summary line. -/
theorem summaryLine?_eq_some {line : List Char} {key : CountKey} {value : List Char} :
    (summaryLine? line).map (·.1) = some (key, value) ↔ IsSummary line key value := by
  constructor
  · intro h
    obtain ⟨⟨m, n⟩, hm, rfl⟩ := Option.map_eq_some_iff.mp h
    exact (summaryLine?_cases hm).1
  · rintro ⟨⟨gap, gap', rest, rfl, hne, hgap, hne', hgap', hrest⟩, hplain, hflush⟩
    have hword : ∀ c ∈ (key.word ++ (gap' ++ (value ++ rest))).head?, isBlank c = false :=
      head?_word
    have hvalue : ∀ c ∈ (value ++ rest).head?, isBlank c = false := by
      cases value with
      | nil =>
          intro c hc
          exact isBlank_of_end (hrest c hc)
      | cons d ds => exact hflush
    obtain ⟨h₁, h₂⟩ := takeWhile_dropWhile_eq hgap hword
    obtain ⟨h₃, h₄⟩ := takeWhile_dropWhile_eq hgap' hvalue
    obtain ⟨h₅, h₆⟩ := takeWhile_dropWhile_eq hplain hrest
    simp only [summaryLine?, h₁, h₂, find?_word, List.drop_left, h₃, h₄, h₅, if_neg hne,
      if_neg hne']
    rfl

/-! ## Counters -/

/-- The number of a counter, if the text has exactly one summary line for it. -/
def CounterIs (stdout : String) (key : CountKey) (n : Nat) : Prop :=
  ∃ line ∈ lineStarts true stdout.toList, ∃ value, IsSummary line key value
    ∧ safeInteger? (trim value) = some n
    ∧ ∀ line' ∈ lineStarts true stdout.toList, ∀ value', IsSummary line' key value' →
      line' = line

/-- Every counter has one summary line with a safe integer; all tests have passed, and there
are some. -/
def TapEvidence (stdout : String) : Prop :=
  ∃ count : CountKey → Nat, (∀ key, CounterIs stdout key (count key))
    ∧ count .fail = 0 ∧ count .skip = 0 ∧ count .cancelled = 0 ∧ count .todo = 0
    ∧ count .tests = count .pass ∧ 0 < count .pass

/-! ### The loop over the matches -/

/-- The readings of all lines. -/
def summaries (stdout : String) : List (CountKey × List Char) :=
  Multiline.lines summaryLine? true stdout.toList

theorem counterIs_iff {stdout : String} {key : CountKey} {n : Nat} :
    CounterIs stdout key n ↔ ∃ value,
      (summaries stdout).filter (·.1 = key) = [(key, value)] ∧ safeInteger? (trim value) = some n := by
  unfold CounterIs summaries
  simp only [Multiline.filter_lines_eq_singleton, decide_eq_true_eq, Prod.forall,
    summaryLine?_eq_some]
  constructor
  · rintro ⟨line, hline, value, hread, hn, hall⟩
    exact ⟨value, ⟨line, hline, hread, trivial, fun line' hline' _ value' hread' hkey =>
      hall line' hline' value' (hkey ▸ hread')⟩, hn⟩
  · rintro ⟨value, ⟨line, hline, hread, -, hall⟩, hn⟩
    exact ⟨line, hline, value, hread, hn, fun line' hline' value' hread' =>
      hall line' hline' key value' hread' rfl⟩

/-- What the loop over the matches makes of a counter. -/
def tally (ms : List (CountKey × List Char)) (key : CountKey) : Option Nat :=
  match ms.filter (·.1 = key) with
  | [m] => safeInteger? (trim m.2)
  | _ => none

theorem foldl_countMatch (ms : List (CountKey × List Char)) :
    (∀ key, key ∈ (ms.foldl countMatch (.empty, [])).2 ↔ ms.filter (·.1 = key) ≠ [])
      ∧ ∀ key, (ms.foldl countMatch (.empty, [])).1.get key = tally ms key := by
  induction ms using List.reverseRecOn with
  | nil => exact ⟨fun key => by simp, fun key => Counts.get_empty key⟩
  | append_singleton ms m ih =>
      obtain ⟨hseen, hcounts⟩ := ih
      rw [List.foldl_append, List.foldl_cons, List.foldl_nil]
      generalize ms.foldl countMatch (.empty, []) = state at hseen hcounts
      obtain ⟨counts, seen⟩ := state
      refine ⟨fun key => ?_, fun key => ?_⟩
      · show key ∈ m.1 :: seen ↔ _
        rw [List.mem_cons, hseen, List.filter_append]
        by_cases hkey : m.1 = key
        · simp [hkey]
        · simp [hkey, Ne.symm hkey]
      · show (counts.set m.1 _).get key = _
        rw [Counts.get_set]
        unfold tally
        rw [List.filter_append]
        by_cases hkey : key = m.1
        · subst hkey
          have hm : [m].filter (fun x => x.1 = m.1) = [m] := by simp
          rw [if_pos rfl, hm]
          cases hms : ms.filter (·.1 = m.1) with
          | nil =>
              have hnew : m.1 ∉ seen := fun hmem => (hseen m.1).mp hmem hms
              rw [if_pos hnew]
              rfl
          | cons x xs =>
              have hold : m.1 ∈ seen :=
                (hseen m.1).mpr (by rw [hms]; exact List.cons_ne_nil _ _)
              rw [if_neg (not_not.mpr hold)]
              cases xs <;> rfl
        · have hm : [m].filter (fun x => x.1 = key) = [] := by simp [Ne.symm hkey]
          rw [if_neg hkey, hm, List.append_nil]
          exact hcounts key

theorem get_parseTapCounts (stdout : String) (key : CountKey) :
    (parseTapCounts stdout).get key
      = tally (Multiline.matchAll summaryLine? stdout.toList) key :=
  (foldl_countMatch _).2 key

/-! ### One line for each counter -/

theorem tally_eq_some {ms : List (CountKey × List Char)} {key : CountKey} {n : Nat} :
    tally ms key = some n ↔
      ∃ value, ms.filter (·.1 = key) = [(key, value)] ∧ safeInteger? (trim value) = some n := by
  unfold tally
  constructor
  · intro h
    split at h
    · rename_i m hm
      have hkey : m.1 = key := by
        have : m ∈ ms.filter (·.1 = key) := by rw [hm]; exact List.mem_cons_self
        simpa using (List.mem_filter.mp this).2
      exact ⟨m.2, by rw [hm, ← hkey], h⟩
    · cases h
  · rintro ⟨value, hms, hn⟩
    rw [hms]
    exact hn

/-! ## Nothing is read inside a counter -/

/-- The match has a number. -/
def IsNumber (m : CountKey × List Char) : Prop := (safeInteger? (trim m.2)).isSome

theorem mem_trim_or_isWhiteSpace {c : Char} {text : List Char} (hc : c ∈ text) :
    c ∈ trim text ∨ isWhiteSpace c = true := by
  rw [← List.takeWhile_append_dropWhile (p := isWhiteSpace) (l := text)] at hc
  rcases List.mem_append.mp hc with hc | hc
  · exact .inr (List.mem_takeWhile_imp hc)
  · rw [← List.rdropWhile_append_rtakeWhile (p := isWhiteSpace)
      (l := text.dropWhile isWhiteSpace)] at hc
    exact (List.mem_append.mp hc).imp id fun hc => List.mem_rtakeWhile_imp hc

/-- There is no `#` in a number. -/
theorem IsNumber.not_mem {m : CountKey × List Char} (h : IsNumber m) : '#' ∉ m.2 := by
  intro hmem
  unfold IsNumber safeInteger? at h
  split at h
  swap
  · cases h
  rename_i hdigits
  rcases mem_trim_or_isWhiteSpace hmem with hc | hc
  · exact absurd (List.all_eq_true.mp hdigits.2.1 '#' hc) (by decide)
  · exact absurd hc (by decide)

theorem summaryLine?_of_ne {c : Char} {text : List Char} (hc : c ≠ '#') :
    summaryLine? (c :: text) = none := by
  unfold summaryLine?
  split
  · rename_i heq
    exact absurd (List.cons_eq_cons.mp heq).1 hc
  · rfl

/-- No line that begins inside a number is read. -/
theorem summaryLine?_inside {text : List Char} {m : CountKey × List Char} {n : Nat}
    (h : summaryLine? text = some (m, n)) (hm : IsNumber m) (k : Nat) (hpos : 0 < k)
    (hk : k < n) : summaryLine? (text.drop k) = none := by
  obtain ⟨-, taken, rest, rfl, rfl, htaken⟩ := summaryLine?_cases h
  obtain ⟨j, rfl⟩ : ∃ j, k = j + 1 := ⟨k - 1, by omega⟩
  have hj : j < taken.length := by omega
  rw [List.drop_succ_cons, List.drop_append_of_le_length hj.le,
    List.drop_eq_getElem_cons hj, List.cons_append]
  refine summaryLine?_of_ne fun he => ?_
  have hmem : '#' ∈ taken := he ▸ List.getElem_mem hj
  rcases htaken _ hmem with hc | hc | hc | hc
  · exact hm.not_mem hc
  · revert hc
    cases m.1 <;> decide
  · exact absurd hc (by decide)
  · exact absurd hc (by decide)

/-- If every match has a number, or every line that can be read, the matches are the lines. -/
theorem matchAll_eq_summaries {stdout : String}
    (h : (∀ m ∈ Multiline.matchAll summaryLine? stdout.toList, IsNumber m)
      ∨ ∀ m ∈ summaries stdout, IsNumber m) :
    Multiline.matchAll summaryLine? stdout.toList = summaries stdout :=
  Multiline.scan_eq_lines (fun _ _ _ hread hm k => summaryLine?_inside hread hm k)
    (fun k hk => absurd hk (Nat.not_lt_zero k))
    (h.elim id fun h m hm => h m (Multiline.scan_sublist.subset hm))

theorem isNumber_of_tally {ms : List (CountKey × List Char)}
    (h : ∀ key, (tally ms key).isSome) : ∀ m ∈ ms, IsNumber m := by
  intro m hm
  obtain ⟨n, hn⟩ := Option.isSome_iff_exists.mp (h m.1)
  obtain ⟨value, hfilter, hvalue⟩ := tally_eq_some.mp hn
  have hmem : m ∈ ms.filter (·.1 = m.1) := List.mem_filter.mpr ⟨hm, by simp⟩
  rw [hfilter] at hmem
  rw [List.mem_singleton.mp hmem]
  exact Option.isSome_iff_exists.mpr ⟨n, hvalue⟩

/-! ### All counters -/

/-- All counters are there exactly if every one has its line. -/
theorem counters_iff {stdout : String} {count : CountKey → Nat} :
    (∀ key, (parseTapCounts stdout).get key = some (count key)) ↔
      ∀ key, CounterIs stdout key (count key) := by
  have htally : ∀ key n, CounterIs stdout key n ↔ tally (summaries stdout) key = some n :=
    fun key n => counterIs_iff.trans tally_eq_some.symm
  simp only [get_parseTapCounts, htally]
  constructor
  · intro h
    rwa [matchAll_eq_summaries (.inl (isNumber_of_tally fun key => by rw [h key]; rfl))] at h
  · intro h
    rwa [matchAll_eq_summaries (.inr (isNumber_of_tally fun key => by rw [h key]; rfl))]

/-! ## One suite -/

/-- A suite ran, and it succeeded. -/
def Succeeds (suite : MilestoneSuite) (outcome : Except String ProcessResult) : Prop :=
  ∃ process, outcome = .ok process ∧ process.exitCode = some 0 ∧ process.signal = none
    ∧ process.spawnError = none ∧ (suite.kind = .test → TapEvidence process.stdout)

/-- Counters without an issue. -/
def Counts.Good (counts : Counts) : Prop :=
  ∃ count : CountKey → Nat, (∀ key, counts.get key = some (count key))
    ∧ count .fail = 0 ∧ count .skip = 0 ∧ count .cancelled = 0 ∧ count .todo = 0
    ∧ count .tests = count .pass ∧ 0 < count .pass

/-! ### Issues -/

theorem tapIssues_eq_nil {counts : Counts} : tapIssues counts = [] ↔ counts.Good := by
  constructor
  · intro h
    unfold tapIssues at h
    dsimp only at h
    split at h
    · rename_i tests pass fail skip cancelled todo
      simp only [List.append_eq_nil_iff, ite_eq_right_iff, List.cons_ne_nil, imp_false,
        not_not] at h
      obtain ⟨⟨⟨⟨⟨htotal, hpass⟩, hfail⟩, hskip⟩, hcancelled⟩, htodo⟩ := h
      refine ⟨fun key => (Counts.get ⟨some tests, some pass, some fail, some skip,
        some cancelled, some todo⟩ key).getD 0, fun key => by cases key <;> rfl,
        hfail, hskip, hcancelled, htodo, ?_, Nat.pos_of_ne_zero hpass⟩
      show tests = pass
      omega
    · cases h
  · rintro ⟨count, hcount, hfail, hskip, hcancelled, htodo, htests, hpass⟩
    obtain ⟨tests, pass, fail, skip, cancelled, todo⟩ := counts
    obtain rfl : tests = _ := hcount .tests
    obtain rfl : pass = _ := hcount .pass
    obtain rfl : fail = _ := hcount .fail
    obtain rfl : skip = _ := hcount .skip
    obtain rfl : cancelled = _ := hcount .cancelled
    obtain rfl : todo = _ := hcount .todo
    simp [tapIssues, hfail, hskip, hcancelled, htodo, htests, Nat.ne_of_gt hpass]

theorem good_parseTapCounts {stdout : String} :
    (parseTapCounts stdout).Good ↔ TapEvidence stdout := by
  unfold Counts.Good TapEvidence
  simp only [counters_iff]

/-! ### Classification -/

theorem classifyResult_status (suite : MilestoneSuite) (process : ProcessResult) :
    (classifyResult suite process).status ≠ .notRun ∧
      ((classifyResult suite process).status = .pass ↔ process.exitCode = some 0
        ∧ process.signal = none ∧ process.spawnError = none
        ∧ (suite.kind = .test → TapEvidence process.stdout)) := by
  have hstatus : ∀ issues : List String,
      (if issues = [] then SuiteStatus.pass else .fail) ≠ .notRun
        ∧ ((if issues = [] then SuiteStatus.pass else .fail) = .pass ↔ issues = []) := by
    intro issues
    split <;> simp [*]
  refine ⟨(hstatus _).1, (hstatus _).2.trans ?_⟩
  rw [List.append_eq_nil_iff, List.append_eq_nil_iff, List.append_eq_nil_iff]
  -- The counts are looked at for the test suites only.
  refine (and_congr (d := suite.kind = .test → TapEvidence process.stdout) .rfl ?_).trans ?_
  · cases suite.kind with
    | build => simp
    | test =>
        rw [← good_parseTapCounts, ← tapIssues_eq_nil]
        simp
  obtain ⟨exitCode, signal, spawnError, stdout⟩ := process
  cases signal <;> cases spawnError <;> simp

theorem classifyResult_pass (suite : MilestoneSuite) (outcome : Except String ProcessResult) :
    (classifyResult suite (processOf outcome)).status = .pass ↔ Succeeds suite outcome := by
  rw [(classifyResult_status suite _).2]
  unfold Succeeds
  cases outcome with
  | ok process => simp [processOf]
  | error message => simp [processOf]

/-! ## The run -/

/-- The suites that were executed, with what came of them. -/
def executions (events : List MilestoneEvent) :
    List (MilestoneSuite × Except String ProcessResult) :=
  events.filterMap fun event => match event with
    | .executed suite outcome => some (suite, outcome)
    | .reported _ => none

/-- The results that were reported. -/
def reports (events : List MilestoneEvent) : List SuiteResult :=
  events.filterMap fun event => match event with
    | .executed _ _ => none
    | .reported result => some result

/-- The executed suites are the first ones of the list, all but the last have succeeded, and
the last has too unless suites were left out. -/
def InOrder (suites : List MilestoneSuite)
    (executed : List (MilestoneSuite × Except String ProcessResult)) : Prop :=
  ∃ rest, suites = executed.map (·.1) ++ rest
    ∧ (∀ x ∈ executed.dropLast, Succeeds x.1 x.2)
    ∧ (rest ≠ [] → ∃ x ∈ executed.getLast?, ¬ Succeeds x.1 x.2)

/-- Every suite was executed, and succeeded. -/
def AllSucceed (suites : List MilestoneSuite)
    (executed : List (MilestoneSuite × Except String ProcessResult)) : Prop :=
  executed.map (·.1) = suites ∧ ∀ x ∈ executed, Succeeds x.1 x.2

variable {σ : Type}

/-! ### One suite more -/

/-- The loop after the suites `done`. -/
structure MilestoneRun.Ok (done : List MilestoneSuite) (run : MilestoneRun σ) : Prop where
  labels : run.results.map (fun r => (r.command, r.kind)) = done.map fun s => (s.label, s.kind)
  reported : reports run.events = run.results
  running : run.failed = false → AllSucceed done (executions run.events)
    ∧ ∀ r ∈ run.results, r.status = .pass
  stopped : run.failed = true → (∃ before x rest,
      executions run.events = before ++ [x]
        ∧ done = (before ++ [x]).map (·.1) ++ rest
        ∧ (∀ y ∈ before, Succeeds y.1 y.2) ∧ ¬ Succeeds x.1 x.2)
    ∧ ∃ r ∈ run.results, r.status = .fail

theorem executions_append (es es' : List MilestoneEvent) :
    executions (es ++ es') = executions es ++ executions es' := List.filterMap_append

theorem reports_append (es es' : List MilestoneEvent) :
    reports (es ++ es') = reports es ++ reports es' := List.filterMap_append

variable {execute : MilestoneSuite → σ → Except String ProcessResult × σ}

/-- One suite more. -/
theorem MilestoneRun.Ok.next {done : List MilestoneSuite} {run : MilestoneRun σ}
    (h : run.Ok done) (suite : MilestoneSuite) :
    (run.next execute suite).Ok (done ++ [suite]) := by
  unfold MilestoneRun.next
  cases hfailed : run.failed with
  | true =>
      obtain ⟨⟨before, x, rest, hexec, hdone, hbefore, hx⟩, r, hr, hstatus⟩ := h.stopped hfailed
      rw [if_pos rfl]
      refine ⟨?_, ?_, fun hrun => ?_, fun _ => ⟨⟨before, x, rest ++ [suite], ?_, ?_, hbefore, hx⟩,
        r, List.mem_append_left _ hr, hstatus⟩⟩
      · rw [List.map_append, List.map_append, h.labels]
        rfl
      · rw [reports_append, h.reported]
        rfl
      · exact nomatch hrun
      · rw [executions_append, hexec]
        exact List.append_nil _
      · rw [hdone, List.append_assoc]
  | false =>
      obtain ⟨⟨hexec, hall⟩, hpass⟩ := h.running hfailed
      rw [if_neg Bool.false_ne_true]
      generalize execute suite run.world = step
      obtain ⟨outcome, world⟩ := step
      obtain ⟨hstatus, -⟩ := classifyResult_status suite (processOf outcome)
      have hsucceeds := classifyResult_pass suite outcome
      have hlabels : ((classifyResult suite (processOf outcome)).command,
          (classifyResult suite (processOf outcome)).kind) = (suite.label, suite.kind) := rfl
      dsimp only
      generalize classifyResult suite (processOf outcome) = result at *
      refine ⟨?_, ?_, fun hrun => ?_, fun hrun => ?_⟩
      · rw [List.map_append, List.map_append, h.labels]
        simp [hlabels]
      · rw [reports_append, h.reported]
        rfl
      · have hnow : result.status = .pass := by
          cases hr : result.status with
          | pass => rfl
          | fail => simp [hr] at hrun
          | notRun => exact absurd hr hstatus
        refine ⟨⟨?_, fun x hx => ?_⟩, fun r hr => ?_⟩
        · rw [executions_append, List.map_append, hexec]
          rfl
        · rw [executions_append] at hx
          rcases List.mem_append.mp hx with hx | hx
          · exact hall x hx
          · obtain rfl : x = (suite, outcome) := List.mem_singleton.mp hx
            exact hsucceeds.mp hnow
        · rcases List.mem_append.mp hr with hr | hr
          · exact hpass r hr
          · rw [List.mem_singleton.mp hr]
            exact hnow
      · have hnow : result.status = .fail := of_decide_eq_true hrun
        refine ⟨⟨executions run.events, (suite, outcome), [], ?_, ?_, hall, fun hx => ?_⟩,
          result, List.mem_append_right _ List.mem_cons_self, hnow⟩
        · rw [executions_append]
          rfl
        · rw [List.map_append, hexec, List.append_nil]
          rfl
        · have := hsucceeds.mpr hx
          rw [hnow] at this
          cases this

theorem MilestoneRun.ok_all (suites : List MilestoneSuite) (world : σ) :
    (MilestoneRun.all execute suites world).Ok suites := by
  unfold MilestoneRun.all
  induction suites using List.reverseRecOn with
  | nil =>
      exact ⟨rfl, rfl, fun _ => ⟨⟨rfl, fun x hx => nomatch hx⟩, fun r hr => nomatch hr⟩,
        fun h => nomatch h⟩
  | append_singleton suites suite ih =>
      rw [List.foldl_append]
      exact ih.next suite

/-! ### The exit code -/

/-- The exit code of a failure is never zero. -/
theorem failureExitCode_ne_zero (results : List SuiteResult) : failureExitCode results ≠ 0 := by
  unfold failureExitCode
  split
  · split
    · assumption
    · decide
  · decide

/-! ### The result -/

/-- **The gate is green exactly if every suite ran and left the evidence**: suites run in
order up to the first failure, each gets one result, and without the evidence of all of them
the exit code is not zero. -/
theorem milestone_gate (suites : List MilestoneSuite) (world : σ) :
    let (summary, events) := runSequentially execute suites world
    InOrder suites (executions events)
      ∧ summary.suites.map (fun r => (r.command, r.kind)) = suites.map (fun s => (s.label, s.kind))
      ∧ reports events = summary.suites
      ∧ (summary.overall = .pass ∧ summary.exitCode = 0 ↔
        suites ≠ [] ∧ AllSucceed suites (executions events))
      ∧ (summary.exitCode = 0 ↔ suites ≠ [] ∧ AllSucceed suites (executions events)) := by
  have hok : (MilestoneRun.all execute suites world).Ok suites := MilestoneRun.ok_all suites world
  unfold runSequentially
  dsimp only
  generalize MilestoneRun.all execute suites world = run at hok
  have hsuccess : (run.results ≠ [] ∧ ∀ r ∈ run.results, r.status = .pass) ↔
      suites ≠ [] ∧ AllSucceed suites (executions run.events) := by
    have hempty : run.results = [] ↔ suites = [] := by
      have := congrArg List.length hok.labels
      simp only [List.length_map] at this
      rw [← List.length_eq_zero_iff, ← List.length_eq_zero_iff, this]
    rw [ne_eq, ne_eq, hempty]
    refine and_congr .rfl ?_
    cases hfailed : run.failed with
    | false => exact ⟨fun _ => (hok.running hfailed).1, fun _ => (hok.running hfailed).2⟩
    | true =>
        obtain ⟨⟨before, x, rest, hexec, -, -, hx⟩, r, hr, hstatus⟩ := hok.stopped hfailed
        constructor
        · intro h
          have := h r hr
          rw [hstatus] at this
          cases this
        · rintro ⟨-, hall⟩
          exact absurd (hall x (by rw [hexec]; simp)) hx
  refine ⟨?_, hok.labels, hok.reported, ?_, ?_⟩
  · cases hfailed : run.failed with
    | false =>
        obtain ⟨⟨hexec, hall⟩, -⟩ := hok.running hfailed
        exact ⟨[], by rw [hexec, List.append_nil], fun x hx => hall x (List.dropLast_subset _ hx),
          fun h => absurd rfl h⟩
    | true =>
        obtain ⟨⟨before, x, rest, hexec, hdone, hbefore, hx⟩, -⟩ := hok.stopped hfailed
        refine ⟨rest, hexec ▸ hdone, ?_, fun _ => ⟨x, ?_, hx⟩⟩
        · rw [hexec, List.dropLast_concat]
          exact hbefore
        · rw [hexec, List.getLast?_concat]
          rfl
  · rw [← hsuccess]
    unfold summarize
    dsimp only
    by_cases h : run.results ≠ [] ∧ ∀ r ∈ run.results, r.status = .pass
    · rw [if_pos h, if_pos h]
      exact ⟨fun _ => h, fun _ => ⟨rfl, rfl⟩⟩
    · rw [if_neg h, if_neg h]
      exact ⟨fun he => (nomatch he.1), fun he => absurd he h⟩
  · rw [← hsuccess]
    unfold summarize
    dsimp only
    by_cases h : run.results ≠ [] ∧ ∀ r ∈ run.results, r.status = .pass
    · rw [if_pos h]
      exact ⟨fun _ => h, fun _ => rfl⟩
    · rw [if_neg h]
      exact ⟨fun he => absurd he (failureExitCode_ne_zero _), fun he => absurd he h⟩

end CostEngine
