import Mathlib.Data.List.Perm.Basic
import StringRewriting.CommandLine.Arguments

/-!
# What a command line states

A command line states things one after the other: a path, numbers for bounds, switches. Nothing but
the request for more messages may be stated twice, so the order does not matter: whoever takes the
statements one by one, in whatever order, ends with the same.

* `Statement`, `Stated.statements`: single statements, and those which lead to given settings.
* `Stated.accept`: what a further statement changes.
* `Stated.Completes`: what is left to be stated.
* `Stated.foldlM_accept_of_perm`: statements are taken in any order.
-/

namespace StringRewriting

/-- One thing that a command line states. -/
inductive Statement where
  /-- The path. -/
  | path (value : Text)
  /-- A number for a bound. -/
  | number (bound : Bound) (n : Nat)
  /-- An option without value. -/
  | switch (switch : Switch)
  deriving DecidableEq

namespace Statement

/-- The path, if this is what is stated. -/
def path? : Statement → Option Text
  | .path p => some p
  | _ => none

/-- The number for a bound, if this is what is stated. -/
def number? (b : Bound) : Statement → Option Nat
  | .number b' n => if b' = b then some n else none
  | _ => none

theorem number?_number (b : Bound) (n : Nat) : (number b n).number? b = some n :=
  if_pos rfl

theorem number?_number_of_ne {b b' : Bound} (h : b ≠ b') (n : Nat) :
    (number b n).number? b' = none :=
  if_neg h

end Statement

namespace Stated

/-- How often an option without value has been stated, where it can be told afterwards. -/
def requests (s : Stated) : Switch → Nat
  | .trace => s.trace.toNat
  | .derivations => s.derivations.toNat
  | .verbose => s.verbosity
  | .help | .version => 0

/-- The statements that lead from nothing to `s`. -/
def statements (s : Stated) : List Statement :=
  s.path.toList.map .path ++ s.depth.toList.map (.number .depth) ++
    s.maxWords.toList.map (.number .maxWords) ++ s.timeout.toList.map (.number .timeout) ++
    List.replicate s.trace.toNat (.switch .trace) ++
    List.replicate s.derivations.toNat (.switch .derivations) ++
    List.replicate s.verbosity (.switch .verbose)

/-- Takes a statement. -/
def accept (s : Stated) : Statement → Except UsageStop Stated
  | .path p => if s.path.isSome then .error .unknownArgument else s.acceptPath p
  | .number b n => if (s.bound? b).isSome then .error .repeatedOption else .ok (s.setBound b n)
  | .switch w => s.acceptSwitch w

/-! ## The parts of what has been stated -/

theorem eq_of_toNat_eq {a b : Bool} (h : a.toNat = b.toNat) : a = b := by
  cases a <;> cases b <;> simp_all

theorem eq_false_of_toNat_lt {a b : Bool} (h : a.toNat < b.toNat) : a = false := by
  cases a <;> cases b <;> simp_all

/-- What has been stated is known by its parts. -/
theorem eq_of_parts {s t : Stated} (hpath : s.path = t.path) (hbound : ∀ b, s.bound? b = t.bound? b)
    (hrequests : ∀ w, s.requests w = t.requests w) : s = t := by
  have hdepth : s.depth = t.depth := hbound .depth
  have hmaxWords : s.maxWords = t.maxWords := hbound .maxWords
  have htimeout : s.timeout = t.timeout := hbound .timeout
  have htrace : s.trace = t.trace := eq_of_toNat_eq (hrequests .trace)
  have hderivations : s.derivations = t.derivations := eq_of_toNat_eq (hrequests .derivations)
  have hverbosity : s.verbosity = t.verbosity := hrequests .verbose
  cases s
  cases t
  simp_all

theorem bound?_setBound (s : Stated) (b b' : Bound) (n : Nat) :
    (s.setBound b n).bound? b' = if b = b' then some n else s.bound? b' := by
  cases b <;> cases b' <;> rfl

@[simp] theorem path_setBound (s : Stated) (b : Bound) (n : Nat) :
    (s.setBound b n).path = s.path := by
  cases b <;> rfl

@[simp] theorem requests_setBound (s : Stated) (b : Bound) (n : Nat) (w : Switch) :
    (s.setBound b n).requests w = s.requests w := by
  cases b <;> cases w <;> rfl

theorem filterMap_path?_statements (s : Stated) :
    s.statements.filterMap Statement.path? = s.path.toList := by
  simp [statements, List.filterMap_map, Function.comp_def, Statement.path?,
    List.filterMap_replicate]

theorem filterMap_number?_statements (s : Stated) (b : Bound) :
    s.statements.filterMap (Statement.number? b) = (s.bound? b).toList := by
  cases b <;>
    simp [statements, List.filterMap_map, Function.comp_def, Statement.number?, bound?,
      List.filterMap_replicate]

theorem number_mem_statements {s : Stated} {b : Bound} {n : Nat} :
    .number b n ∈ s.statements ↔ s.bound? b = some n := by
  cases b <;> simp [statements, bound?]

theorem count_switch_statements (s : Stated) (w : Switch) :
    s.statements.count (.switch w) = s.requests w := by
  have hnumber : ∀ b (l : List Nat), (l.map (Statement.number b)).count (.switch w) = 0 :=
    fun b l => List.count_eq_zero.2 (by simp)
  have hpath : ∀ l : List Text, (l.map Statement.path).count (.switch w) = 0 :=
    fun l => List.count_eq_zero.2 (by simp)
  cases w <;> simp [statements, requests, List.count_replicate, hnumber, hpath]

/-! ## Taking statements -/

/-- The statements `ss` are what is left to be stated between `s` and `t`. -/
structure Completes (ss : List Statement) (s t : Stated) : Prop where
  /-- The path was stated or is left. -/
  path : s.path.toList ++ ss.filterMap Statement.path? = t.path.toList
  /-- So was every number. -/
  bound : ∀ b, (s.bound? b).toList ++ ss.filterMap (Statement.number? b) = (t.bound? b).toList
  /-- So were the options without value. -/
  requests : ∀ w, s.requests w + ss.count (.switch w) = t.requests w

/-- A list with the members of an option is its list. -/
theorem eq_toList_of_perm {α : Type} {l : List α} {o : Option α} (h : l.Perm o.toList) :
    l = o.toList := by
  cases o with
  | none => exact List.perm_nil.1 h
  | some a => exact List.perm_singleton.1 h

/-- Before the first statement everything is left, in whatever order. -/
theorem completes_nothing {ss : List Statement} {t : Stated} (h : ss.Perm t.statements) :
    Completes ss nothing t where
  path := by
    have hpath := h.filterMap Statement.path?
    rw [filterMap_path?_statements] at hpath
    simpa [nothing] using eq_toList_of_perm hpath
  bound b := by
    have hbound := h.filterMap (Statement.number? b)
    rw [filterMap_number?_statements] at hbound
    cases b <;> simpa [nothing, bound?] using eq_toList_of_perm hbound
  requests w := by
    have hnothing : nothing.requests w = 0 := by cases w <;> rfl
    rw [hnothing, Nat.zero_add, h.count_eq, count_switch_statements]

theorem eq_of_toList_eq {α : Type} {o o' : Option α} (h : o.toList = o'.toList) : o = o' := by
  rw [← Option.head?_toList (o := o), h, Option.head?_toList]

/-- When nothing is left, all has been stated. -/
theorem eq_of_completes_nil {s t : Stated} (h : Completes [] s t) : s = t := by
  obtain ⟨hpath, hbound, hrequests⟩ := h
  simp only [List.filterMap_nil, List.append_nil, List.count_nil, Nat.add_zero]
    at hpath hbound hrequests
  exact eq_of_parts (eq_of_toList_eq hpath) (fun b => eq_of_toList_eq (hbound b)) hrequests

/-- What is left and can be stated once only has not been stated. -/
theorem eq_none_of_append_cons {α : Type} {o o' : Option α} {a : α} {l : List α}
    (h : o.toList ++ a :: l = o'.toList) : o = none ∧ o' = some a ∧ l = [] := by
  cases o <;> cases o' <;> simp_all

/-- An option without value that is left can be stated. -/
theorem exists_acceptSwitch {s t : Stated} {w : Switch} (h : s.requests w < t.requests w)
    (hverbosity : t.verbosity ≤ maxVerbosity) :
    ∃ s', s.acceptSwitch w = .ok s' ∧ s'.path = s.path ∧ (∀ b, s'.bound? b = s.bound? b) ∧
      ∀ w', s'.requests w' = s.requests w' + if w = w' then 1 else 0 := by
  cases w with
  | trace =>
    have hfresh : s.trace = false := eq_false_of_toNat_lt h
    refine ⟨{ s with trace := true }, by simp [acceptSwitch, hfresh], rfl, fun b => ?_,
      fun w' => ?_⟩
    · cases b <;> rfl
    · cases w' <;> simp [requests, hfresh]
  | derivations =>
    have hfresh : s.derivations = false := eq_false_of_toNat_lt h
    refine ⟨{ s with derivations := true }, by simp [acceptSwitch, hfresh], rfl, fun b => ?_,
      fun w' => ?_⟩
    · cases b <;> rfl
    · cases w' <;> simp [requests, hfresh]
  | verbose =>
    have hcount : min (s.verbosity + 1) maxVerbosity = s.verbosity + 1 := by
      simp only [requests] at h
      omega
    refine ⟨{ s with verbosity := s.verbosity + 1 }, by simp [acceptSwitch, hcount], rfl,
      fun b => ?_, fun w' => ?_⟩
    · cases b <;> rfl
    · cases w' <;> simp [requests]
  | help => simp [requests] at h
  | version => simp [requests] at h

/-- The first of the statements that are left is taken. -/
theorem Completes.exists_accept {a : Statement} {ss : List Statement} {s t : Stated}
    (h : Completes (a :: ss) s t) (hpath : t.path ≠ some [])
    (hverbosity : t.verbosity ≤ maxVerbosity) :
    ∃ s', s.accept a = .ok s' ∧ Completes ss s' t := by
  obtain ⟨hpaths, hbounds, hswitches⟩ := h
  cases a with
  | path p =>
    rw [List.filterMap_cons_some (show Statement.path? (.path p) = some p from rfl)] at hpaths
    obtain ⟨hfresh, hp, hrest⟩ := eq_none_of_append_cons hpaths
    have hne : p ≠ [] := by
      rintro rfl
      exact hpath hp
    refine ⟨{ s with path := some p }, ?_, ?_, fun b => ?_, fun w => ?_⟩
    · simp [accept, acceptPath, hfresh, hne]
    · simp [hp, hrest]
    · rw [← hbounds b, List.filterMap_cons_none rfl]
      cases b <;> rfl
    · rw [← hswitches w, List.count_cons_of_ne (by simp)]
      cases w <;> rfl
  | number b n =>
    have hbound := hbounds b
    rw [List.filterMap_cons_some (Statement.number?_number b n)] at hbound
    obtain ⟨hfresh, hn, hrest⟩ := eq_none_of_append_cons hbound
    refine ⟨s.setBound b n, ?_, ?_, fun b' => ?_, fun w => ?_⟩
    · simp [accept, hfresh]
    · rw [path_setBound, ← hpaths, List.filterMap_cons_none rfl]
    · rw [bound?_setBound]
      by_cases hb : b = b'
      · subst hb
        simp [hn, hrest]
      · rw [if_neg hb, ← hbounds b', List.filterMap_cons_none (Statement.number?_number_of_ne hb n)]
    · rw [requests_setBound, ← hswitches w, List.count_cons_of_ne (by simp)]
  | switch w =>
    have hswitch := hswitches w
    rw [List.count_cons_self] at hswitch
    obtain ⟨s', hs', hpath', hbound', hrequests'⟩ :=
      exists_acceptSwitch (s := s) (t := t) (w := w) (by omega) hverbosity
    refine ⟨s', hs', ?_, fun b => ?_, fun w' => ?_⟩
    · rw [hpath', ← hpaths, List.filterMap_cons_none rfl]
    · rw [hbound', ← hbounds b, List.filterMap_cons_none rfl]
    · rw [hrequests', ← hswitches w', List.count_cons]
      simp only [beq_iff_eq, Statement.switch.injEq]
      omega

/-- What is left is taken as a whole. -/
theorem Completes.foldlM_accept {ss : List Statement} {s t : Stated} (h : Completes ss s t)
    (hpath : t.path ≠ some []) (hverbosity : t.verbosity ≤ maxVerbosity) :
    ss.foldlM accept s = .ok t := by
  induction ss generalizing s with
  | nil => rw [List.foldlM_nil, eq_of_completes_nil h]; rfl
  | cons a ss ih =>
    obtain ⟨s', hs', hrest⟩ := h.exists_accept hpath hverbosity
    rw [List.foldlM_cons, hs']
    exact ih hrest

/-- **The order of statements does not matter.** -/
theorem foldlM_accept_of_perm {ss : List Statement} {t : Stated} (h : ss.Perm t.statements)
    (hpath : t.path ≠ some []) (hverbosity : t.verbosity ≤ maxVerbosity) :
    ss.foldlM accept nothing = .ok t :=
  (completes_nothing h).foldlM_accept hpath hverbosity

end Stated

end StringRewriting
