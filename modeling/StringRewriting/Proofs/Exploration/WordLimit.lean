import StringRewriting.Proofs.Exploration.Reachability

/-!
# The bound in the number of words

An exploration that refuses further words has recorded the first ones in the order of discovery, and
everything it tells is what the exploration without this bound tells of them.

* `Grammar.length_discoveries_le`, `Grammar.length_discoveries_of_wordLimit`: how many words there
  are.
* `Grammar.explore_maxWords_truncates`: an exploration with the bound and one without it.
-/

namespace StringRewriting

universe u

/-- In a list without repetitions, the members of a prefix are that prefix. -/
theorem filter_mem_of_prefix {ws vs : List Word} (h : vs <+: ws) (hws : ws.Nodup) :
    ws.filter (· ∈ vs) = vs := by
  obtain ⟨us, rfl⟩ := h
  rw [List.nodup_append] at hws
  have hvs : vs.filter (· ∈ vs) = vs := List.filter_eq_self.2 (by simp)
  have hus : us.filter (· ∈ vs) = [] := by
    refine List.filter_eq_nil_iff.2 fun w hw hmem => ?_
    exact hws.2.2 w (of_decide_eq_true hmem) w hw rfl
  rw [List.filter_append, hvs, hus, List.append_nil]

namespace Grammar

variable {σ : Type u} {g : Grammar} {limits full cut : Limits} {obs : Observer σ}
  {clock clock' : Clock} {c : Nat}

/-- The start word is always recorded, any other word only below the bound. -/
theorem length_discoveries_le (h : limits.maxWords = some c) :
    (g.discoveries limits clock).length ≤ max c 1 := by
  rw [discoveries, length_found]
  by_cases hpos : 0 < (g.trace limits clock).length
  · have hadmitted := refusesWord_eq_false g limits clock hpos (Nat.le_refl _)
    simp only [Limits.refusesWord, h, Option.any_some, decide_eq_false_iff_not] at hadmitted
    omega
  · omega

theorem length_discoveries_of_wordLimit (h : limits.maxWords = some c)
    (hend : (g.explore limits obs clock).halt = .wordLimit) :
    (g.discoveries limits clock).length = max c 1 := by
  have hle : (g.discoveries limits clock).length ≤ max c 1 := length_discoveries_le h
  have hfull := (cut_of_wordLimit hend clock).2
  simp only [Limits.refusesWord, h, Option.any_some, decide_eq_true_eq] at hfull
  rw [discoveries, length_found] at hle ⊢
  omega

/-- An exploration that ends at the bound has left out a word that is discovered without it. -/
theorem exists_not_mem_of_wordLimit (hend : (g.explore limits obs clock).halt = .wordLimit) :
    ∃ w ∈ g.found (g.chronicle limits.maxDepth), w ∉ g.discoveries limits clock := by
  obtain ⟨ts, hts⟩ := g.trace_prefix_chronicle limits clock
  have hlt := length_trace_lt_of_wordLimit hend
  rw [← hts, List.length_append] at hlt
  cases ts with
  | nil => simp at hlt
  | cons t ts =>
    have hnodup := g.nodup_found_chronicle limits.maxDepth
    rw [← hts, found_append, List.nodup_append] at hnodup
    refine ⟨t.child, ?_, fun hmem => ?_⟩
    · rw [← hts, found_append]
      simp
    · exact hnodup.2.2 _ hmem _ (by simp) rfl

/-! ## Exactness -/

/-- An exploration ends at the bound exactly where a word within the depth bound has no record. -/
theorem halt_eq_wordLimit_iff (htime : (g.explore limits obs clock).halt ≠ .timeout) :
    (g.explore limits obs clock).halt = .wordLimit ↔
      ∃ n ≤ limits.maxDepth, ∃ w, g.Admissible n w ∧
        (g.explore limits obs clock).record? w = none := by
  constructor
  · intro hend
    obtain ⟨w, hw, hnew⟩ := exists_not_mem_of_wordLimit hend
    obtain ⟨n, hn, hadmissible⟩ := mem_found_chronicle_iff_admissible.1 hw
    exact ⟨n, hn, w, hadmissible, record?_explore_eq_none_iff.2 hnew⟩
  · rintro ⟨n, hn, w, hadmissible, hnone⟩
    by_contra hend
    have hfound := discoveries_of_isComplete (Halt.isComplete_iff.2 ⟨hend, htime⟩)
    refine record?_explore_eq_none_iff.1 hnone ?_
    rw [hfound]
    exact mem_found_chronicle_iff_admissible.2 ⟨n, hn, hadmissible⟩

/-- The bound ends an exploration exactly where without it more words are recorded. -/
theorem halt_eq_wordLimit_iff_lt (hcut : cut.maxWords = some c)
    (hdepth : cut.maxDepth = full.maxDepth)
    (hfull : (g.explore full obs clock).halt.isComplete)
    (htime : (g.explore cut obs clock').halt ≠ .timeout) :
    (g.explore cut obs clock').halt = .wordLimit ↔
      max c 1 < (g.explore full obs clock).discovered := by
  rw [discovered_explore]
  constructor
  · intro hend
    have hlt := length_trace_lt_of_wordLimit hend
    rw [hdepth, ← trace_of_isComplete hfull] at hlt
    rw [← length_discoveries_of_wordLimit hcut hend, discoveries, discoveries, length_found,
      length_found]
    omega
  · intro hlt
    by_contra hend
    have hcomplete := Halt.isComplete_iff.2 ⟨hend, htime⟩
    have hle : (g.discoveries cut clock').length ≤ max c 1 := length_discoveries_le hcut
    rw [discoveries_of_isComplete hcomplete, hdepth, ← discoveries_of_isComplete hfull] at hle
    omega

/-- The bound in words ends an exploration exactly where the levels hold more words than it admits.
-/
theorem halt_eq_wordLimit_iff_length (htime : (g.explore limits obs clock).halt ≠ .timeout) :
    (g.explore limits obs clock).halt = .wordLimit ↔ ∃ c, limits.maxWords = some c ∧
      max c 1 < (g.found (g.chronicle limits.maxDepth)).length := by
  cases hwords : limits.maxWords with
  | none =>
    have hcomplete := isComplete_of_maxWords_eq_none hwords htime
    simp [(Halt.isComplete_iff.1 hcomplete).1]
  | some c =>
    have hfull : (g.explore (.depth limits.maxDepth) obs clock).halt.isComplete :=
      isComplete_of_maxWords_eq_none rfl (g.halt_ne_timeout _ obs clock rfl)
    have hdepth : limits.maxDepth = (Limits.depth limits.maxDepth).maxDepth := rfl
    rw [halt_eq_wordLimit_iff_lt hwords hdepth hfull htime, discovered_explore,
      discoveries_of_isComplete hfull, ← hdepth]
    simp

/-- The trace up to the bound is the first part of the whole one. -/
theorem trace_eq_take_of_wordLimit (hcut : cut.maxWords = some c)
    (hdepth : cut.maxDepth = full.maxDepth) (hfull : (g.explore full obs clock).halt.isComplete)
    (hend : (g.explore cut obs clock').halt = .wordLimit) :
    g.trace cut clock' = (g.trace full clock).take (max c 1 - 1) := by
  have hlength := length_discoveries_of_wordLimit hcut hend
  rw [discoveries, length_found] at hlength
  have hpre := g.trace_prefix_chronicle cut clock'
  rw [hdepth, ← trace_of_isComplete hfull, List.prefix_iff_eq_take] at hpre
  rw [hpre]
  congr 1
  omega

/-- So are the words in the order of their discovery. -/
theorem discoveries_eq_take_of_wordLimit (hcut : cut.maxWords = some c)
    (hpre : g.trace cut clock' <+: g.trace full clock)
    (hend : (g.explore cut obs clock').halt = .wordLimit) :
    g.discoveries cut clock' = (g.discoveries full clock).take (max c 1) := by
  have hprefix := discoveries_prefix_discoveries hpre
  rw [List.prefix_iff_eq_take, length_discoveries_of_wordLimit hcut hend] at hprefix
  exact hprefix

/-- **A bound in the number of words is exact truncation.** Take an exploration with the bound `c`
and one without a bound, neither ended by the time. If the second records at most as many words as
the first may, the two are the same. Otherwise the first ends at the bound with as many words as it
may record: the first ones in the order of the second, with their records, their part of the trace
and their results. So the bound ends an exploration exactly where a word within the depth bound is
left out. -/
theorem explore_maxWords_truncates (g : Grammar) (full cut : Limits) (c : Nat) (obs : Observer σ)
    (clock clock' : Clock) (hfull : full.maxWords = none) (hcut : cut.maxWords = some c)
    (hdepth : cut.maxDepth = full.maxDepth)
    (hfullTime : (g.explore full obs clock).halt ≠ .timeout)
    (hcutTime : (g.explore cut obs clock').halt ≠ .timeout) :
    ((g.explore full obs clock).discovered ≤ max c 1 →
      g.explore cut obs clock' = g.explore full obs clock) ∧
    (max c 1 < (g.explore full obs clock).discovered →
      (g.explore cut obs clock').halt = .wordLimit ∧
      (g.explore cut obs clock').discovered = max c 1 ∧
      g.discoveries cut clock' = (g.discoveries full clock).take (max c 1) ∧
      (∀ w, (g.explore cut obs clock').record? w =
        if w ∈ (g.discoveries full clock).take (max c 1) then (g.explore full obs clock).record? w
        else none) ∧
      g.trace cut clock' = (g.trace full clock).take (max c 1 - 1) ∧
      (g.explore cut obs clock').observed =
        ((g.trace full clock).take (max c 1 - 1)).foldl obs.notify obs.initial ∧
      (g.explore cut obs clock').words = (g.explore full obs clock).words.filter
        (· ∈ (g.discoveries full clock).take (max c 1))) ∧
    ((g.explore cut obs clock').halt = .wordLimit ↔
      ∃ n ≤ full.maxDepth, ∃ w, g.Admissible n w ∧
        (g.explore cut obs clock').record? w = none) := by
  have hcomplete := isComplete_of_maxWords_eq_none hfull hfullTime
  have hiff := halt_eq_wordLimit_iff_lt hcut hdepth hcomplete hcutTime
  refine ⟨?_, ?_, hdepth ▸ halt_eq_wordLimit_iff hcutTime⟩
  · intro hle
    have hend : (g.explore cut obs clock').halt ≠ .wordLimit := mt hiff.1 (by omega)
    exact explore_eq_explore (Halt.isComplete_iff.2 ⟨hend, hcutTime⟩) hcomplete hdepth
  · intro hlt
    have hend := hiff.2 hlt
    have htrace := trace_eq_take_of_wordLimit hcut hdepth hcomplete hend
    have hpre : g.trace cut clock' <+: g.trace full clock := by
      rw [htrace]
      exact List.take_prefix _ _
    have horder := discoveries_eq_take_of_wordLimit hcut hpre hend
    refine ⟨hend, ?_, horder, ?_, htrace, ?_, ?_⟩
    · rw [discovered_explore, length_discoveries_of_wordLimit hcut hend]
    · intro w
      rw [← horder]
      exact record?_eq_ite_of_prefix_trace hpre w
    · rw [observed_explore, htrace]
    · rw [words_explore, words_explore, List.filter_comm, ← horder,
        filter_mem_of_prefix (discoveries_prefix_discoveries hpre) (g.nodup_discoveries full clock)]

theorem explore_rightLinear_truncates :
    (rightLinear.explore (.depth 2) .recorder .still).discovered = 5 ∧
      (rightLinear.explore ⟨2, some 4, none⟩ .recorder .still).halt = .wordLimit ∧
      (rightLinear.explore ⟨2, some 4, none⟩ .recorder .still).words = [['b']] := by
  have hfull := rightLinear.halt_ne_timeout (.depth 2) .recorder .still rfl
  have hcut := rightLinear.halt_ne_timeout ⟨2, some 4, none⟩ .recorder .still rfl
  have hnumber : (rightLinear.explore (.depth 2) .recorder .still).discovered = 5 := by
    rw [discovered_explore, discoveries_rightLinear]
    rfl
  obtain ⟨-, htruncated, -⟩ := explore_maxWords_truncates rightLinear (.depth 2) ⟨2, some 4, none⟩ 4
    .recorder .still .still rfl rfl rfl hfull hcut
  obtain ⟨hend, -, -, -, -, -, hwords⟩ := htruncated (by rw [hnumber]; decide)
  refine ⟨hnumber, hend, ?_⟩
  rw [hwords, words_explore, discoveries_rightLinear]
  decide +kernel

end Grammar

end StringRewriting
