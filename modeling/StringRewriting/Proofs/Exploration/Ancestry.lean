import StringRewriting.Proofs.Exploration.Derivation

/-!
# Derivations are chains of first discoveries

A recorded parent is recorded itself, one step less deep, so the way back from a recorded word comes
to the start word and needs no bound. What it passes is a chain of rewriting steps on which every
word stands at the place of its depth.

* `Records.Climbs`, `Records.Climbs.unique`: the way back as it is without a look at the depths.
* `Grammar.climbs_iff`: from a recorded word it ends, with the derivation of the word.
* `Exploration.Lineage`: a chain of recorded words, each the parent of the next.
* `Grammar.explore_derives`: what the derivations of an exploration are.
-/

namespace StringRewriting

universe u

/-! ## The way back -/

namespace Records

variable {rs : Records}

/-- The way back from a record with the words `tail` behind it ends, with the chain to these words
or, at a parent without a record, with nothing. It does not look at the depths, so nothing in it
makes it end. -/
inductive Climbs (rs : Records) : Record → List Word → Option (List Word) → Prop
  /-- There is no word before this one. -/
  | root {r : Record} {tail : List Word} (hparent : r.parent = none) : Climbs rs r tail (some tail)
  /-- The word before this one has no record. -/
  | dangling {r : Record} {tail : List Word} {p : Word} (hparent : r.parent = some p)
      (hp : rs[p]? = none) : Climbs rs r tail none
  /-- The way goes on from the word before this one. -/
  | parent {r r' : Record} {tail : List Word} {p : Word} {result : Option (List Word)}
      (hparent : r.parent = some p) (hp : rs[p]? = some r') (h : Climbs rs r' (p :: tail) result) :
      Climbs rs r tail result

/-- The way back ends in one way only. -/
theorem Climbs.unique {r : Record} {tail : List Word} {result result' : Option (List Word)}
    (h : rs.Climbs r tail result) (h' : rs.Climbs r tail result') : result = result' := by
  induction h with
  | root hparent =>
    cases h' with
    | root => rfl
    | dangling hparent' | parent hparent' => exact absurd (hparent.symm.trans hparent') nofun
  | dangling hparent hp =>
    cases h' with
    | root hparent' => exact absurd (hparent.symm.trans hparent') nofun
    | dangling => rfl
    | parent hparent' hp' =>
      obtain rfl := Option.some_inj.1 (hparent.symm.trans hparent')
      exact absurd (hp.symm.trans hp') nofun
  | parent hparent hp _ ih =>
    cases h' with
    | root hparent' => exact absurd (hparent.symm.trans hparent') nofun
    | dangling hparent' hp' =>
      obtain rfl := Option.some_inj.1 (hparent.symm.trans hparent')
      exact absurd (hp.symm.trans hp') nofun
    | parent hparent' hp' h' =>
      obtain rfl := Option.some_inj.1 (hparent.symm.trans hparent')
      obtain rfl := Option.some_inj.1 (hp.symm.trans hp')
      exact ih h'

end Records

/-! ## Chains of recorded words -/

/-- The words of a chain are recorded at the depths of their places, the first one without a parent
and every other one with the word in front of it as its parent. -/
structure Exploration.Lineage {σ : Type u} (e : Exploration σ) (chain : List Word) : Prop where
  /-- The first word has no parent. -/
  root : ∀ w, chain[0]? = some w → e.record? w = some ⟨0, none⟩
  /-- The parent of every other word stands in front of it. -/
  parent : ∀ i v w, chain[i]? = some v → chain[i + 1]? = some w →
    e.record? w = some ⟨i + 1, some v⟩

namespace Exploration.Lineage

variable {σ : Type u} {e : Exploration σ} {chain : List Word}

/-- A word behind its parent goes on with the chain. -/
theorem append_singleton (h : e.Lineage chain) {p w : Word} (hp : chain.getLast? = some p)
    (hw : e.record? w = some ⟨chain.length, some p⟩) : e.Lineage (chain ++ [w]) := by
  have hpos : 0 < chain.length := List.length_pos_iff.2 (by rintro rfl; simp at hp)
  constructor
  · intro v hv
    rw [List.getElem?_append_left hpos] at hv
    exact h.root v hv
  · intro i u v hu hv
    by_cases hi : i + 1 < chain.length
    · rw [List.getElem?_append_left (by omega)] at hu
      rw [List.getElem?_append_left hi] at hv
      exact h.parent i u v hu hv
    · -- the last two words are the old last one and the new one
      have hlast : i + 1 = chain.length := by
        have hbound := (List.getElem?_eq_some_iff.1 hv).1
        rw [List.length_append, List.length_singleton] at hbound
        omega
      rw [List.getElem?_append_left (by omega), ← Nat.add_sub_cancel i 1, hlast,
        ← List.getLast?_eq_getElem?, hp, Option.some_inj] at hu
      rw [hlast, List.getElem?_concat_length, Option.some_inj] at hv
      rw [hlast, ← hu, ← hv, hw]

/-- A word stands at the place of its depth, behind its parent. -/
theorem exists_record? (h : e.Lineage chain) {i : Nat} {w : Word} (hw : chain[i]? = some w) :
    ∃ r, e.record? w = some r ∧ r.depth = i ∧ (0 < i → r.parent = chain[i - 1]?) := by
  cases i with
  | zero => exact ⟨_, h.root w hw, rfl, fun hpos => absurd hpos (Nat.lt_irrefl 0)⟩
  | succ i =>
    have hi : i < chain.length := Nat.lt_of_succ_lt (List.getElem?_eq_some_iff.1 hw).1
    have hv : chain[i]? = some chain[i] := List.getElem?_eq_getElem hi
    exact ⟨_, h.parent i _ w hv hw, rfl, fun _ => hv.symm⟩

/-- No word stands at two places, because it has one depth. -/
theorem nodup (h : e.Lineage chain) : chain.Nodup := by
  rw [List.nodup_iff_getElem?_ne_getElem?]
  intro i j hij hj heq
  have hw : chain[j]? = some chain[j] := List.getElem?_eq_getElem hj
  obtain ⟨r, hr, hdepth, -⟩ := h.exists_record? hw
  obtain ⟨r', hr', hdepth', -⟩ := h.exists_record? (heq.trans hw)
  obtain rfl := Option.some_inj.1 (hr.symm.trans hr')
  omega

end Exploration.Lineage

/-! ## Derivations -/

namespace Grammar

variable {σ : Type u} {g : Grammar} {limits : Limits} {obs : Observer σ} {clock : Clock}

/-- A recorded parent is not final and leads to its child. -/
theorem parent_of_record? {w p : Word} {depth : Nat}
    (h : (g.explore limits obs clock).record? w = some ⟨depth, some p⟩) :
    ¬ g.isFinal p ∧ w ∈ successors g.rules p := by
  obtain ⟨-, ⟨⟩⟩ | ⟨t, ht, rfl, ⟨⟩⟩ := record?_explore_eq_some_iff.1 h
  obtain ⟨before, after, hsplit⟩ := List.append_of_mem ht
  obtain ⟨_, -, -, -, hfinal, hsuccessor, -⟩ := parent_of_trace_eq hsplit
  exact ⟨hfinal, hsuccessor⟩

/-- From a recorded word the way back ends where the one that looks at the depths does. -/
theorem climbs_ancestry? {w : Word} {r : Record}
    (hr : (g.explore limits obs clock).record? w = some r) (tail : List Word) :
    (g.explore limits obs clock).records.Climbs r tail
      ((g.explore limits obs clock).records.ancestry? r tail) := by
  have hw : w ∈ g.discoveries limits clock := exists_record?_explore_iff.1 ⟨r, hr⟩
  induction hw using mem_discoveries_induction generalizing r tail with
  | start =>
    obtain rfl : (⟨0, none⟩ : Record) = r := Option.some_inj.1 (record?_explore_start.symm.trans hr)
    rw [Records.ancestry?_of_parent_eq_none rfl]
    exact .root rfl
  | child t ht ih =>
    obtain rfl : ⟨t.depth, some t.parent⟩ = r :=
      Option.some_inj.1 ((record?_child ht).symm.trans hr)
    obtain ⟨r', hr', hdepth⟩ := exists_record?_parent obs ht
    have hlt : r'.depth < t.depth := by omega
    rw [Records.ancestry?_of_parent_eq_some rfl hr' hlt]
    exact .parent rfl hr' (ih hr' (t.parent :: tail))

/-- **The way back from a recorded word ends with its derivation**, and with nothing else. -/
theorem climbs_iff {w : Word} {r : Record} (hr : (g.explore limits obs clock).record? w = some r)
    {result : Option (List Word)} :
    (g.explore limits obs clock).records.Climbs r [w] result ↔
      result = (g.explore limits obs clock).derivation? w := by
  have hderivation : (g.explore limits obs clock).derivation? w =
      (g.explore limits obs clock).records.ancestry? r [w] := by
    rw [Exploration.derivation?, hr]
    rfl
  have hclimbs := climbs_ancestry? hr [w]
  rw [hderivation]
  constructor
  · exact fun h => h.unique hclimbs
  · rintro rfl
    exact hclimbs

/-- A recorded word is derived by a chain of recorded words that ends with it. -/
theorem exists_lineage {w : Word} {r : Record}
    (hr : (g.explore limits obs clock).record? w = some r) :
    ∃ chain, (g.explore limits obs clock).derivation? w = some chain ∧
      (g.explore limits obs clock).Lineage chain ∧ chain.length = r.depth + 1 ∧
        chain.getLast? = some w := by
  have hw : w ∈ g.discoveries limits clock := exists_record?_explore_iff.1 ⟨r, hr⟩
  induction hw using mem_discoveries_induction generalizing r with
  | start =>
    obtain rfl : (⟨0, none⟩ : Record) = r := Option.some_inj.1 (record?_explore_start.symm.trans hr)
    refine ⟨[g.start], derivation?_start, ⟨?_, ?_⟩, rfl, rfl⟩
    · rintro w ⟨⟩
      exact hr
    · simp
  | child t ht ih =>
    obtain rfl : ⟨t.depth, some t.parent⟩ = r :=
      Option.some_inj.1 ((record?_child ht).symm.trans hr)
    obtain ⟨r', hr', hdepth⟩ := exists_record?_parent obs ht
    obtain ⟨chain, hchain, hlineage, hlength, hlast⟩ := ih hr'
    have hrecord : (g.explore limits obs clock).record? t.child =
        some ⟨chain.length, some t.parent⟩ := by
      rw [hr, hlength, hdepth]
    refine ⟨chain ++ [t.child], ?_, hlineage.append_singleton hlast hrecord, ?_, by simp⟩
    · rw [derivation?_child ht, hchain, Option.map_some]
    · rw [List.length_append, List.length_singleton, hlength, hdepth]

/-- **Derivations are real and complete**, wherever an exploration ends. A word has one exactly if
it was recorded, and the way back to the start word ends there without any bound. On the derivation
of a word every word stands at the place of its depth, behind its parent, from the start word to the
word itself. So no word stands there twice, none but the last is final, and each leads to the next
in one step. -/
theorem explore_derives (g : Grammar) (limits : Limits) (obs : Observer σ) (clock : Clock)
    (w : Word) :
    ((g.explore limits obs clock).derivation? w = none ↔
      (g.explore limits obs clock).record? w = none) ∧
    ∀ r, (g.explore limits obs clock).record? w = some r →
      (∀ result, (g.explore limits obs clock).records.Climbs r [w] result ↔
        result = (g.explore limits obs clock).derivation? w) ∧
      ∃ chain, (g.explore limits obs clock).derivation? w = some chain ∧
        chain.head? = some g.start ∧ chain.getLast? = some w ∧ chain.length = r.depth + 1 ∧
        (∀ i v, chain[i]? = some v → ∃ r', (g.explore limits obs clock).record? v = some r' ∧
          r'.depth = i ∧ (0 < i → r'.parent = chain[i - 1]?)) ∧
        chain.Nodup ∧ (∀ v ∈ chain.dropLast, ¬ g.isFinal v) ∧
        chain.IsChain fun u v => v ∈ successors g.rules u := by
  constructor
  · constructor
    · intro hnone
      by_contra hr
      obtain ⟨r, hr⟩ := Option.ne_none_iff_exists'.1 hr
      obtain ⟨chain, hchain, -⟩ := exists_lineage hr
      exact absurd (hnone.symm.trans hchain) nofun
    · intro hr
      rw [Exploration.derivation?, hr]
      rfl
  · intro r hr
    obtain ⟨chain, hchain, hlineage, hlength, hlast⟩ := exists_lineage hr
    have hstep : ∀ i (hi : i + 1 < chain.length),
        ¬ g.isFinal chain[i] ∧ chain[i + 1] ∈ successors g.rules chain[i] := by
      intro i hi
      exact parent_of_record? (hlineage.parent i _ _ (List.getElem?_eq_getElem (by omega))
        (List.getElem?_eq_getElem hi))
    refine ⟨fun result => climbs_iff hr, chain, hchain, ?_, hlast, hlength,
      fun i v hv => hlineage.exists_record? hv, hlineage.nodup, ?_, ?_⟩
    · have hfirst : chain[0]? = some chain[0] := List.getElem?_eq_getElem (by omega)
      have hstart := (parent_eq_none_iff_of_record? (hlineage.root _ hfirst)).1 rfl
      rw [List.head?_eq_getElem?, hfirst, hstart]
    · intro v hv
      obtain ⟨i, hi, rfl⟩ := List.getElem_of_mem hv
      rw [List.length_dropLast] at hi
      rw [List.getElem_dropLast]
      exact (hstep i (by omega)).1
    · rw [List.isChain_iff_getElem]
      exact fun i hi => (hstep i hi).2

/-- The derivation of `ab` passes `aS`. -/
theorem explore_rightLinear_derives :
    (rightLinear.explore (.depth 2) .recorder .still).record? ['a', 'b'] =
        some ⟨2, some ['a', 'S']⟩ ∧
      (rightLinear.explore (.depth 2) .recorder .still).derivation? ['a', 'b'] =
        some [['S'], ['a', 'S'], ['a', 'b']] := by
  have htrace : ⟨['a', 'S'], ['a', 'b'], 2⟩ ∈ rightLinear.trace (.depth 2) .still := by
    rw [trace_rightLinear]
    decide
  have hr : (rightLinear.explore (.depth 2) .recorder .still).record? ['a', 'b'] =
      some ⟨2, some ['a', 'S']⟩ := record?_child htrace
  obtain ⟨-, hderives⟩ := explore_derives rightLinear (.depth 2) .recorder .still ['a', 'b']
  obtain ⟨-, chain, hchain, hhead, hlast, hlength, hrecords, -⟩ := hderives _ hr
  obtain ⟨u, v, w, rfl⟩ := List.length_eq_three.1 hlength
  obtain rfl : u = ['S'] := Option.some_inj.1 hhead
  obtain rfl : w = ['a', 'b'] := Option.some_inj.1 hlast
  obtain ⟨r, hr', -, hparent⟩ := hrecords 2 ['a', 'b'] rfl
  obtain rfl := Option.some_inj.1 (hr.symm.trans hr')
  obtain rfl : ['a', 'S'] = v := Option.some_inj.1 (hparent (by decide))
  exact ⟨hr, hchain⟩

end Grammar

end StringRewriting
