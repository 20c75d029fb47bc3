import Mathlib.Data.List.Nodup
import StringRewriting.Exploration.Record
import StringRewriting.Grammar.Basic
import StringRewriting.Proofs.Rewriting

/-!
# What an expansion discovers

When some words are expanded, all their successors are candidates, and a candidate is discovered if
its word was neither known before nor met earlier among the candidates. Here this is a function on
lists, apart from any queue or table.

* `freshBy`: the members of a list with new words; `freshBy_append` takes a list apart.
* `find?_of_mem_freshBy`: a member is taken where its word comes first.
* `Grammar.births`: the transitions that an expansion discovers.
-/

namespace StringRewriting

universe u

section FreshBy

variable {α : Type u} {word : α → Word}

/-- The members of a list whose words are not among `seen`, of several with one word the first. -/
def freshBy (word : α → Word) (seen : List Word) : List α → List α
  | [] => []
  | a :: l =>
    if word a ∈ seen then freshBy word seen l else a :: freshBy word (seen ++ [word a]) l

theorem freshBy_append (seen : List Word) (l m : List α) :
    freshBy word seen (l ++ m) =
      freshBy word seen l ++ freshBy word (seen ++ (freshBy word seen l).map word) m := by
  induction l generalizing seen with
  | nil => simp [freshBy]
  | cons a l ih =>
    rw [List.cons_append, freshBy, freshBy]
    split
    · exact ih seen
    · rw [ih, List.cons_append, List.map_cons, List.append_assoc, List.singleton_append]

/-- The words that are new are the new ones among all words. -/
theorem map_freshBy (seen : List Word) (l : List α) :
    (freshBy word seen l).map word = freshBy id seen (l.map word) := by
  induction l generalizing seen with
  | nil => rfl
  | cons a l ih =>
    rw [freshBy, List.map_cons, freshBy, id_eq]
    split
    · exact ih seen
    · rw [List.map_cons, ih]

/-- The words seen before and the new ones are together all words that were met. -/
theorem mem_append_map_freshBy (seen : List Word) {l : List α} {w : Word} :
    w ∈ seen ++ (freshBy word seen l).map word ↔ w ∈ seen ++ l.map word := by
  induction l generalizing seen with
  | nil => rfl
  | cons a l ih =>
    rw [freshBy]
    split
    · next h =>
      rw [ih]
      simp only [List.map_cons, List.mem_append, List.mem_cons]
      constructor
      · rintro (hw | hw)
        · exact .inl hw
        · exact .inr (.inr hw)
      · rintro (hw | rfl | hw)
        · exact .inl hw
        · exact .inl h
        · exact .inr hw
    · have h := ih (seen ++ [word a])
      rw [List.append_assoc, List.append_assoc] at h
      exact h

theorem nodup_append_map_freshBy {seen : List Word} (h : seen.Nodup) (l : List α) :
    (seen ++ (freshBy word seen l).map word).Nodup := by
  induction l generalizing seen with
  | nil => simpa [freshBy] using h
  | cons a l ih =>
    rw [freshBy]
    split
    · exact ih h
    · next hnew =>
      have hseen : (seen ++ [word a]).Nodup := by
        rw [← List.concat_eq_append]
        exact List.Nodup.concat hnew h
      simpa using ih hseen

/-- A member with a new word is the first one with its word. -/
theorem find?_of_mem_freshBy {seen : List Word} {l : List α} {a : α}
    (h : a ∈ freshBy word seen l) :
    word a ∉ seen ∧ l.find? (fun b => word b = word a) = some a := by
  induction l generalizing seen with
  | nil => simp [freshBy] at h
  | cons b l ih =>
    rw [freshBy] at h
    split at h
    · next hb =>
      obtain ⟨hnew, hfind⟩ := ih h
      have hne : word b ≠ word a := fun e => hnew (e ▸ hb)
      exact ⟨hnew, by rw [List.find?_cons_of_neg (by simpa using hne), hfind]⟩
    · next hb =>
      rcases List.mem_cons.1 h with rfl | h
      · exact ⟨hb, List.find?_cons_of_pos (by simp)⟩
      · obtain ⟨hnew, hfind⟩ := ih h
        rw [List.mem_append, List.mem_singleton, not_or] at hnew
        exact ⟨hnew.1, by rw [List.find?_cons_of_neg (by simpa using Ne.symm hnew.2), hfind]⟩

end FreshBy

namespace Grammar

variable (g : Grammar)

/-- The start word and the children of some transitions, in the order of their discovery. -/
def found (ts : List Transition) : List Word :=
  g.start :: ts.map Transition.child

/-- The transitions from some words to their successors. -/
def candidates (depth : Nat) (ws : List Word) : List Transition :=
  ws.flatMap fun p => (successors g.rules p).map fun w => ⟨p, w, depth⟩

/-- The transitions that the expansion of some words discovers after the transitions `ts`. -/
def births (ts : List Transition) (depth : Nat) (ws : List Word) : List Transition :=
  freshBy Transition.child (g.found ts) (g.candidates depth ws)

/-- The entries of the frontier for the children of some transitions. -/
def pending (ts : List Transition) : List (Word × Nat) :=
  (ts.filter fun t => ¬ g.isFinal t.child).map fun t => (t.child, t.depth)

variable {g}

@[simp] theorem found_nil : g.found [] = [g.start] := rfl

@[simp] theorem found_append (ts us : List Transition) :
    g.found (ts ++ us) = g.found ts ++ us.map Transition.child := by
  simp [found]

theorem found_prefix_found {ts us : List Transition} (h : ts <+: us) : g.found ts <+: g.found us :=
  List.cons_prefix_cons.2 ⟨rfl, h.map _⟩

@[simp] theorem length_found (ts : List Transition) : (g.found ts).length = ts.length + 1 := by
  simp [found]

theorem nodup_found_append_singleton {ts : List Transition} {t : Transition} :
    (g.found (ts ++ [t])).Nodup ↔ t.child ∉ g.found ts ∧ (g.found ts).Nodup := by
  rw [found_append, List.map_singleton, ← List.concat_eq_append, List.nodup_concat]

@[simp] theorem pending_append (ts us : List Transition) :
    g.pending (ts ++ us) = g.pending ts ++ g.pending us := by
  simp [pending]

theorem candidates_cons (depth : Nat) (p : Word) (ws : List Word) :
    g.candidates depth (p :: ws) =
      ((successors g.rules p).map fun w => ⟨p, w, depth⟩) ++ g.candidates depth ws := rfl

@[simp] theorem births_nil (ts : List Transition) (depth : Nat) : g.births ts depth [] = [] := rfl

/-- Several words are expanded one after the other. -/
theorem births_cons (ts : List Transition) (depth : Nat) (p : Word) (ws : List Word) :
    g.births ts depth (p :: ws) =
      g.births ts depth [p] ++ g.births (ts ++ g.births ts depth [p]) depth ws := by
  have hsingle : g.candidates depth [p] = (successors g.rules p).map fun w => ⟨p, w, depth⟩ := by
    simp [candidates]
  rw [births, candidates_cons, freshBy_append, ← hsingle]
  simp only [births, found_append]

theorem nodup_found_append_births {ts : List Transition} (h : (g.found ts).Nodup) (depth : Nat)
    (ws : List Word) : (g.found (ts ++ g.births ts depth ws)).Nodup := by
  rw [found_append]
  exact nodup_append_map_freshBy h _

theorem map_child_candidates (depth : Nat) (ws : List Word) :
    (g.candidates depth ws).map Transition.child = ws.flatMap (successors g.rules) := by
  simp [candidates, List.map_flatMap, Function.comp_def]

/-- Among the candidates, the first one with a given word comes from the first word that leads to
it. -/
theorem find?_candidates (depth : Nat) (ws : List Word) (w : Word) :
    (g.candidates depth ws).find? (fun t => t.child = w) =
      (ws.find? fun p => w ∈ successors g.rules p).map fun p => ⟨p, w, depth⟩ := by
  have hmap : ∀ p (l : List Word), (l.map fun w' => (⟨p, w', depth⟩ : Transition)).find?
      (fun t => t.child = w) = if w ∈ l then some ⟨p, w, depth⟩ else none := by
    intro p l
    induction l with
    | nil => rfl
    | cons w' l ih =>
      rw [List.map_cons, List.find?_cons, ih]
      by_cases h : w' = w
      · simp [h]
      · simp [h, Ne.symm h]
  induction ws with
  | nil => rfl
  | cons p ws ih =>
    rw [candidates_cons, List.find?_append, hmap, ih, List.find?_cons]
    by_cases h : w ∈ successors g.rules p
    · simp [h]
    · simp [h]

/-- A discovered word is a child of the first word that leads to it. -/
theorem parent_of_mem_births {ts : List Transition} {depth : Nat} {ws : List Word} {t : Transition}
    (h : t ∈ g.births ts depth ws) :
    t.child ∉ g.found ts ∧ t.depth = depth ∧
      ws.find? (fun p => t.child ∈ successors g.rules p) = some t.parent := by
  obtain ⟨hnew, hfind⟩ := find?_of_mem_freshBy h
  rw [find?_candidates] at hfind
  obtain ⟨p, hp, ht⟩ := Option.map_eq_some_iff.1 hfind
  have hparent : t.parent = p := by rw [← ht]
  have hdepth : t.depth = depth := by rw [← ht]
  exact ⟨hnew, hdepth, hparent ▸ hp⟩

end Grammar

end StringRewriting
